import Mathlib.Data.Nat.Notation

/-!
# Sizes of the build

The sizes of the fixed tables, as the default build sets them (`dpdk/meson_options.txt`,
`dpdk/config/x86/meson.build`, `lib/ff_config.h`, `lib/ff_memory.h`).
-/

set_option autoImplicit false

namespace FStack.Model

def RTE_MAX_ETHPORTS : ℕ := 32

def RTE_MAX_LCORE : ℕ := 128

def DPDK_MAX_LCORE : ℕ := 128

def DPDK_MAX_VLAN_FILTER : ℕ := 128

def MAX_RX_QUEUE_PER_LCORE : ℕ := 16

def MAX_PKT_BURST : ℕ := 32

def TX_QUEUE_SIZE : ℕ := 512

end FStack.Model
