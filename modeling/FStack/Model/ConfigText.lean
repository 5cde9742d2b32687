import FStack.Model.BuildLimits
import Mathlib.Algebra.Order.Ring.Int
import Mathlib.Data.List.Sort

/-!
# Numbers and lists in the configuration file

The functions of the C library that `lib/ff_config.c` reads numbers with, `rte_strsplit`
(`dpdk/lib/eal/common/eal_common_string_fns.c`), and the two parsers built on them:
`__parse_config_list` for lists of ports, lcores and VLAN ids, and `parse_lcore_mask`.

A list is written into an array that its caller owns.  The array is a function on all indices:
the parser writes one element more than the array has before it gives up.
-/

set_option autoImplicit false

namespace FStack.Model

/-! ## Library functions -/

/-- `isspace` in the C locale. -/
def isSpace (c : Char) : Bool :=
  c = ' ' || c = '\t' || c = '\n' || c = '\r' || c.toNat = 11 || c.toNat = 12

/-- `isblank` in the C locale. -/
def isBlank (c : Char) : Bool := c = ' ' || c = '\t'

def digitsVal (ds : List Char) : ℕ := ds.foldl (fun n c => 10 * n + (c.toNat - '0'.toNat)) 0

/-- A value out of range becomes `LONG_MIN` or `LONG_MAX`. -/
def clampLong (x : ℤ) : ℤ := max (-2 ^ 63) (min x (2 ^ 63 - 1))

/-- A `long` stored in an `int`. -/
def toInt (x : ℤ) : ℤ := x.bmod (2 ^ 32)

/-- An integer stored in a `uint16_t`. -/
def toU16 (x : ℤ) : ℕ := (x % 65536).toNat

/-- An optional sign and decimal digits, with what follows them. -/
def scanDigits (s : List Char) : Option (ℤ × List Char) :=
  let (neg, ds) :=
    match s with
    | '-' :: t => (true, t)
    | '+' :: t => (false, t)
    | t => (false, t)
  let num := ds.takeWhile Char.isDigit
  if num = [] then none
  else some (clampLong (if neg then -(digitsVal num : ℤ) else digitsVal num),
    ds.dropWhile Char.isDigit)

/-- `strtol(s, &endptr, 10)`, with the text at `endptr`: where there is no number, `endptr` is `s`. -/
def strtol (s : List Char) : ℤ × List Char :=
  (scanDigits (s.dropWhile isSpace)).getD (0, s)

/-- `atoi`. -/
def atoi (s : String) : ℤ := toInt (strtol s.toList).1

/-- `sscanf(section, "<word>%d", &n)` for a section that begins with the four letters of `<word>`. -/
def sscanfInt (section_ : String) : Option ℤ :=
  (scanDigits ((section_.toList.drop 4).dropWhile isSpace)).map fun p => toInt p.1

/-- `rte_strsplit` with at most `n` tokens.  The last token of a full array runs to the end of the
text, unless it is empty.
SOURCE: dpdk/lib/eal/common/eal_common_string_fns.c:15-41 -/
def rteStrsplit (delim : Char) : ℕ → List Char → List (List Char)
  | 0, _ => []
  | _ + 1, [] => []
  | 1, c :: s => if c = delim then [[]] else [c :: s]
  | n + 2, c :: s =>
    (c :: s).takeWhile (· ≠ delim) ::
      rteStrsplit delim (n + 1) ((c :: s).dropWhile (· ≠ delim)).tail

/-- `__strstrip`: the text without the blanks around it.
SOURCE: lib/ff_config.c:245-255 -/
def strstrip (s : List Char) : List Char :=
  ((s.dropWhile (· = ' ')).reverse.dropWhile (· = ' ')).reverse

/-! ## Lists -/

/-- The array and `nr_ele`, in `__parse_config_list`. -/
structure ListAcc where
  arr : ℕ → ℕ
  nr_ele : ℕ

/-- Store one element, unless there are too many.
SOURCE: lib/ff_config.c:280-284 -/
def ListAcc.push (max_ele : ℕ) (a : ListAcc) (v : ℤ) : ListAcc × Bool :=
  if max_ele < a.nr_ele then (a, false)
  else (⟨fun i => if i = a.nr_ele then toU16 v else a.arr i, a.nr_ele + 1⟩, true)

/-- The loop over a range.  It stops at the latest when there are too many elements, after
`max_ele + 2` rounds.
SOURCE: lib/ff_config.c:299-305 -/
def ListAcc.pushRange (max_ele : ℕ) (rv : ℤ) : ℕ → ListAcc → ℤ → ListAcc × Bool
  | 0, a, _ => (a, false)
  | rounds + 1, a, j =>
    if j ≤ rv then
      match a.push max_ele j with
      | (a', true) => pushRange max_ele rv rounds a' (toInt (j + 1))
      | (a', false) => (a', false)
    else (a, true)

/-- One token of a list: a number, or a range `l-r`.
SOURCE: lib/ff_config.c:270-306 -/
def ListAcc.token (max_ele : ℕ) (a : ListAcc) (tok : List Char) : ListAcc × Bool :=
  if tok.contains '-' then
    let (lv, lend) := strtol (strstrip (tok.takeWhile (· ≠ '-')))
    if lend ≠ [] then (a, false)
    else
      let (rv, rend) := strtol (strstrip (tok.dropWhile (· ≠ '-')).tail)
      if rend ≠ [] then (a, false)
      else a.pushRange max_ele rv (max_ele + 2) (toInt lv)
  else
    let (v, vend) := strtol (strstrip tok)
    if vend ≠ [] then (a, false) else a.push max_ele v

/-- The loop over the tokens. -/
def ListAcc.tokens (max_ele : ℕ) : ListAcc → List (List Char) → ListAcc × Bool
  | a, [] => (a, true)
  | a, tok :: toks =>
    match a.token max_ele tok with
    | (a', true) => tokens max_ele a' toks
    | (a', false) => (a', false)

/-- What `__parse_config_list` leaves behind: the array, `*sz` and the returned value. -/
structure ListResult where
  arr : ℕ → ℕ
  sz : ℕ
  ok : Bool

/-- `sort_uint16_array` of the first `n` elements.
SOURCE: lib/ff_config.c:233-243 -/
def sortArray (arr : ℕ → ℕ) (n : ℕ) : ℕ → ℕ := fun i =>
  if i < n then (((List.range n).map arr).insertionSort (· ≤ ·)).getD i 0 else arr i

/-- `__parse_config_list`, for an array `arr` of `*sz = max_ele` elements.  A list without elements is
accepted and leaves `*sz` as it was.
SOURCE: lib/ff_config.c:257-316 -/
def parseConfigList (arr : ℕ → ℕ) (max_ele : ℕ) (value : String) : ListResult :=
  match ListAcc.tokens max_ele ⟨arr, 0⟩ (rteStrsplit ',' 128 value.toList) with
  | (a, false) => ⟨a.arr, max_ele, false⟩
  | (a, true) =>
    if a.nr_ele = 0 then ⟨a.arr, max_ele, true⟩
    else ⟨sortArray a.arr a.nr_ele, a.nr_ele, true⟩

/-! ## The lcore mask -/

/-- `isxdigit` and `xdigit2val`.
SOURCE: lib/ff_config.c:57-69 -/
def xdigit2val (c : Char) : Option ℕ :=
  if c.isDigit then some (c.toNat - '0'.toNat)
  else if 'A' ≤ c ∧ c ≤ 'F' then some (c.toNat - 'A'.toNat + 10)
  else if 'a' ≤ c ∧ c ≤ 'f' then some (c.toNat - 'a'.toNat + 10)
  else none

/-- The lcores of one digit of the mask, whose lowest bit stands for lcore `idx`.
SOURCE: lib/ff_config.c:115-129 -/
def digitCores (idx val : ℕ) : List ℕ :=
  ((List.range 4).map (idx + ·)).filter fun i => i < RTE_MAX_LCORE && val.testBit (i - idx)

/-- The loop over the digits of the mask, from the last one on: the lcores in `proc_lcore`, and the
digits that were not looked at, or nothing where a character is no digit.
SOURCE: lib/ff_config.c:109-131 -/
def maskLoop : List Char → ℕ → List ℕ → List ℕ × Option (List Char)
  | [], _, cores => (cores, some [])
  | c :: s, idx, cores =>
    if idx < RTE_MAX_LCORE then
      match xdigit2val c with
      | none => (cores, none)
      | some val => maskLoop s (idx + 4) (cores ++ digitCores idx val)
    else (cores, some (c :: s))

/-- The mask without the blanks around it and without `0x`, from its last character on.
SOURCE: lib/ff_config.c:90-107 -/
def maskDigits (coremask : List Char) : List Char :=
  let s := coremask.dropWhile isBlank
  let s := match s with
    | '0' :: 'x' :: t => t
    | '0' :: 'X' :: t => t
    | t => t
  s.reverse.dropWhile isBlank

/-- `parse_lcore_mask`: the lcores that are left in `proc_lcore`, and whether the mask is accepted for
the process `proc_id`.
SOURCE: lib/ff_config.c:71-141 -/
def parseLcoreMask (proc_id : ℤ) (coremask : String) : List ℕ × Bool :=
  match maskLoop (maskDigits coremask.toList) 0 [] with
  | (cores, none) => (cores, false)
  | (cores, some rest) =>
    (cores, maskDigits coremask.toList ≠ [] && rest.all (· = '0') && (proc_id < cores.length))

/-- What the loop over the digits keeps besides the position: `idx`, the lcores in `proc_lcore`, and
`proc_mask` once it is written. -/
structure MaskScan where
  idx : ℕ
  proc_lcore : List ℕ
  proc_mask : Option (List Char)

/-- The text with the bit of the lcore `idx` alone.
SOURCE: lib/ff_config.c:119-124 -/
def procMaskText (idx : ℕ) : List Char :=
  Nat.toDigits 16 (1 <<< (idx &&& 0x3)) ++ List.replicate (idx >>> 2) '0'

namespace MaskScan

/-- The bit `j` of a digit.
SOURCE: lib/ff_config.c:115-129 -/
def bit (proc_id : ℤ) (val : ℕ) (m : MaskScan) (j : ℕ) : MaskScan :=
  if m.idx < RTE_MAX_LCORE then
    if val.testBit j then
      { idx := m.idx + 1
        proc_lcore := m.proc_lcore ++ [m.idx]
        proc_mask :=
          if proc_id = m.proc_lcore.length then some (procMaskText m.idx) else m.proc_mask }
    else { m with idx := m.idx + 1 }
  else m

/-- The loop over the digits, as `maskLoop` has it. -/
def digits (proc_id : ℤ) : List Char → MaskScan → MaskScan × Option (List Char)
  | [], m => (m, some [])
  | c :: s, m =>
    if m.idx < RTE_MAX_LCORE then
      match xdigit2val c with
      | none => (m, none)
      | some val => digits proc_id s ((List.range 4).foldl (bit proc_id val) m)
    else (m, some (c :: s))

end MaskScan

/-- The fields that `parse_lcore_mask` sets, and the returned value. -/
structure LcoreMask where
  proc_lcore : List ℕ
  proc_mask : Option (List Char)
  nb_procs : Option ℕ
  ok : Bool

/-- `parse_lcore_mask` with all that it leaves in the configuration, where there is memory for the
list and the text.
SOURCE: lib/ff_config.c:71-141 -/
def lcoreMaskFields (proc_id : ℤ) (coremask : String) : LcoreMask :=
  let s := maskDigits coremask.toList
  if s = [] then ⟨[], none, none, false⟩
  else
    match MaskScan.digits proc_id s ⟨0, [], none⟩ with
    | (m, none) => ⟨m.proc_lcore, m.proc_mask, none, false⟩
    | (m, some rest) =>
      if rest.all (· = '0') && (proc_id < m.proc_lcore.length) then
        ⟨m.proc_lcore, m.proc_mask, some m.proc_lcore.length, true⟩
      else ⟨m.proc_lcore, m.proc_mask, none, false⟩

end FStack.Model
