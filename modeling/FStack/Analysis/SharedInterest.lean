import FStack.Analysis.KqueueMirror
import FStack.Analysis.EpollKnotes

/-!
# The shared interest of a session

The write list of a session has each proxy at most once.  The registration of the socket does not follow it: the first
proxy that registers for writing takes the filter for reading away, and the first that deregisters takes the filter for
writing away from all others.
-/

set_option autoImplicit false

namespace FStack.Analysis

open FStack.Model FStack.Prelude FStack.Model.KqueueProxy

variable {s : SessionNtfy} {kq : KnoteTable} {fd : BitVec 32} {env : KqEnv}

/-! ## What is expected -/

/-- Each proxy is in the list at most once, and its flag says whether it is. -/
structure WriteListed (s : SessionNtfy) : Prop where
  once : s.write_list.Nodup
  flag : ∀ proxy, s.flag proxy = true ↔ proxy ∈ s.write_list

/-- The socket is registered for writing if and only if a proxy waits to write, and it is registered for reading. -/
structure SharedRight (s : SessionNtfy) : Prop extends WriteListed s where
  write : .write ∈ registered s.kqueue.kq s.osfd ↔ s.write_list ≠ []
  read : .read ∈ registered s.kqueue.kq s.osfd

/-- The socket is registered for reading, and no proxy waits. -/
structure Idle (s : SessionNtfy) : Prop where
  inRange : (s.kqueue.kqFdRefGet s.osfd).isSome = true
  filters : registered s.kqueue.kq s.osfd = {.read}
  record : (s.kqueue.kqrefs s.osfd).events = {.read}
  list : s.write_list = []
  flag : ∀ proxy, s.flag proxy = false

/-! ## The list -/

theorem WriteListed.congr {s' : SessionNtfy} (h : WriteListed s)
    (heq : s'.write_list = s.write_list ∧ s'.flag = s.flag) : WriteListed s' := by
  constructor
  · rw [heq.1]
    exact h.once
  · intro proxy
    rw [heq.1, heq.2]
    exact h.flag proxy

theorem Idle.right (h : Idle s) : SharedRight s where
  once := by
    rw [h.list]
    exact List.nodup_nil
  flag proxy := by
    rw [h.flag, h.list]
    exact iff_of_false Bool.false_ne_true List.not_mem_nil
  write := by
    rw [h.filters, h.list]
    decide
  read := by
    rw [h.filters]
    decide

end FStack.Analysis
