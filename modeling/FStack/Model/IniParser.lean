import FStack.Model.Config
import Mathlib.Data.List.DropRight

/-!
# The text of the configuration file

`ini_parse` (`lib/ff_ini_parser.c`) reads the file with `fgets`, strips each line, and hands sections,
names and values to a handler, up to the first line that it cannot read or that the handler refuses.
The handler of `ff_load_config` is `ini_parse_handler`.

Characters are bytes.  The switches of `ff_ini_parser.h` have their defaults.  The handler may work in
any monad, as `ini_parse_handler` keeps a log of its accesses.
-/

set_option autoImplicit false

namespace FStack.Model

open FStack.Prelude

def INI_MAX_LINE : ℕ := 2048

def MAX_SECTION : ℕ := 50

def MAX_NAME : ℕ := 50

/-! ## Strings -/

/-- SOURCE: lib/ff_ini_parser.c:25-32 -/
def rstrip (s : List Char) : List Char := s.rdropWhile isSpace

/-- SOURCE: lib/ff_ini_parser.c:34-40 -/
def lskip (s : List Char) : List Char := s.dropWhile isSpace

/-- `find_chars_or_comment`: the text that is passed over, and the text at the pointer that is returned.
Where `chars` is `NULL` it is empty here.
SOURCE: lib/ff_ini_parser.c:42-60 -/
def findCharsOrComment (chars : List Char) : Bool → List Char → List Char × List Char
  | _, [] => ([], [])
  | was_space, c :: s =>
    if c ∈ chars ∨ (was_space = true ∧ c = ';') then ([], c :: s)
    else
      let r := findCharsOrComment chars (isSpace c) s
      (c :: r.1, r.2)

/-- `strncpy0` into an array of `size` bytes.
SOURCE: lib/ff_ini_parser.c:62-68 -/
def strncpy0 (src : List Char) (size : ℕ) : List Char := src.take (size - 1)

/-- `fgets` of at most `num` characters: the line, and what is left in the stream. -/
def fgets : ℕ → List Char → List Char × List Char
  | 0, s => ([], s)
  | _ + 1, [] => ([], [])
  | num + 1, c :: s =>
    if c = '\n' then ([c], s)
    else
      let r := fgets num s
      (c :: r.1, r.2)

/-- The lines that `fgets` fills an array of `INI_MAX_LINE` bytes with, until the end of the file, each
up to its first zero byte.  There are not more of them than the file has bytes. -/
def readLines : ℕ → List Char → List (List Char)
  | 0, _ => []
  | _ + 1, [] => []
  | turns + 1, c :: s =>
    let r := fgets (INI_MAX_LINE - 1) (c :: s)
    r.1.takeWhile (fun c => c.toNat ≠ 0) :: readLines turns r.2

/-! ## Lines -/

/-- What a line is: a comment or blank, the head of a section, a name with its value, a further line of
the value before it, or none of these. -/
inductive IniItem where
  | nothing
  | header (name : List Char)
  | pair (name value : List Char)
  | more (value : List Char)
  | malformed
deriving DecidableEq, Repr

/-- The byte order mark of UTF-8. -/
def bom : List Char := [Char.ofNat 0xEF, Char.ofNat 0xBB, Char.ofNat 0xBF]

/-- SOURCE: lib/ff_ini_parser.c:104-110 -/
def skipBom (lineno : ℕ) (line : List Char) : List Char :=
  if lineno = 1 ∧ line.take 3 = bom then line.drop 3 else line

/-- The cases of the loop of `ini_parse_stream`, up to what they do.
SOURCE: lib/ff_ini_parser.c:103-163 -/
def readItem (lineno : ℕ) (prev_name : List Char) (line : List Char) : IniItem :=
  let stripped := rstrip (skipBom lineno line)
  match lskip stripped with
  | [] => .nothing
  | c :: start =>
    if c = ';' ∨ c = '#' then .nothing
    else if prev_name ≠ [] ∧ (skipBom lineno line ≠ line ∨ c :: start ≠ stripped) then .more (c :: start)
    else if c = '[' then
      match findCharsOrComment [']'] false start with
      | (name, ']' :: _) => .header name
      | _ => .malformed
    else
      match findCharsOrComment ['=', ':'] false (c :: start) with
      | (name, e :: value) =>
        if e = '=' ∨ e = ':' then
          .pair (rstrip name) (rstrip (lskip (findCharsOrComment [] false value).1))
        else .malformed
      | (_, []) => .malformed

/-! ## The whole file -/

/-- `section` and `prev_name`. -/
structure IniState where
  sect : List Char := []
  prev_name : List Char := []

section Parse

variable {m : Type → Type} [Monad m] {σ : Type}
  (handler : σ → List Char → List Char → List Char → m (σ × Bool))

/-- The loop of `ini_parse_stream`, after `lineno` lines: what the handler has made of `user`, and the
line of the first error.
SOURCE: lib/ff_ini_parser.c:99-172 -/
def iniLoop : ℕ → IniState → σ → List (List Char) → m (σ × ℕ)
  | _, _, user, [] => pure (user, 0)
  | lineno, st, user, line :: lines =>
    match readItem (lineno + 1) st.prev_name line with
    | .nothing => iniLoop (lineno + 1) st user lines
    | .header name => iniLoop (lineno + 1) ⟨strncpy0 name MAX_SECTION, []⟩ user lines
    | .pair name value =>
      handler user st.sect name value >>= fun r =>
        if r.2 = true then iniLoop (lineno + 1) { st with prev_name := strncpy0 name MAX_NAME } r.1 lines
        else pure (r.1, lineno + 1)
    | .more value =>
      handler user st.sect st.prev_name value >>= fun r =>
        if r.2 = true then iniLoop (lineno + 1) st r.1 lines else pure (r.1, lineno + 1)
    | .malformed => pure (user, lineno + 1)

/-- SOURCE: lib/ff_ini_parser.c:70-179 -/
def iniParseStream (user : σ) (stream : List Char) : m (σ × ℕ) :=
  iniLoop handler 0 {} user (readLines stream.length stream)

end Parse

/-! ## `ff_load_config` -/

/-- What a call of the handler meets: see `IniLine`. -/
structure IniMeets where
  table_alloc : Bool := true
  list_alloc : Bool := true
  stack : ℕ → ℕ := fun _ => 0

def iniLine (meets : IniMeets) (sect name value : List Char) : IniLine :=
  ⟨String.ofList sect, String.ofList name, String.ofList value, meets.table_alloc, meets.list_alloc,
    meets.stack⟩

/-- `ini_parse_handler`, with the number of its calls. -/
def countedHandler (proc_id : ℤ) (meets : ℕ → IniMeets) (user : Config × ℕ)
    (sect name value : List Char) : Configuring ((Config × ℕ) × Bool) :=
  iniParseHandler proc_id user.1 (iniLine (meets user.2) sect name value) >>= fun r =>
    pure ((r.1, user.2 + 1), r.2)

/-- `ff_load_config` of a file, if it can be opened.
SOURCE: lib/ff_config.c:1395-1447; lib/ff_ini_parser.c:181-201 -/
def ffLoadConfigFile (args : ProcArgs) (meets : ℕ → IniMeets) (file : Option (List Char)) :
    Configuring (Option Config) :=
  match file with
  | none => pure none
  | some stream =>
    iniParseStream (countedHandler args.proc_id meets) ({}, 0) stream >>= fun r =>
      if r.2 = 0 then
        ffCheckConfig args r.1.1 >>= fun ok => pure (if ok then some r.1.1 else none)
      else pure none

end FStack.Model
