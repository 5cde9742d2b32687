import FStack.Prelude.LinkedChain
import Mathlib.Algebra.Order.Ring.Int

/-!
# The links of the hash tables

The entries of a `HashList` (`adapter/micro_thread/hash_list.h`) are objects of classes that are derived from `HashKey`.
An object has room for one link and for the hash value with which it was inserted, and is not inserted again as long as
one of the two is not zero.

The objects are named by the type `α` of their addresses, `key` is what the fields of their class hold.  `_count` is an
`int`.
-/

set_option autoImplicit false

namespace FStack.Model

open FStack.Prelude

/-- `HashValue` and `HashCmp` of a class.  Objects that compare equal have the same hash value.
SOURCE: hash_list.h:49-51 -/
class HashFields (κ : Type) where
  hashValue : κ → BitVec 32
  hashCmp : κ → κ → ℤ
  hashValue_eq : ∀ {item key : κ}, hashCmp item key = 0 → hashValue item = hashValue key

/-- `HashKey`, an object of the class.
SOURCE: hash_list.h:36-64 -/
structure HashObject (α κ : Type) where
  next_entry : Option α
  hash_value : BitVec 32
  key : κ

/-- `HashList` and the objects; there are no buckets if `calloc` fails. -/
structure ChainedHash (α κ : Type) where
  max : ℕ
  buckets : Option (ℕ → Option α)
  count : ℤ
  obj : α → HashObject α κ

/-- SOURCE: hash_list.h:211-233 -/
def getMaxPrimeNum (num : ℕ) : ℕ :=
  let sqrt_value := num.sqrt
  (((List.range num).map (num - ·)).find? fun i =>
    (List.range' 2 (sqrt_value - 1)).all fun k => i % k ≠ 0).getD 0

namespace ChainedHash

variable {α κ : Type}

/-- A table whose objects have been constructed.
SOURCE: hash_list.h:47, 70-74 -/
def init (max : ℤ) (calloc : Bool) (keys : α → κ) : ChainedHash α κ where
  max := getMaxPrimeNum (if max > 2 then max.toNat else 100000)
  buckets := if calloc then some fun _ => none else none
  count := 0
  obj e := ⟨none, 0, keys e⟩

/-- The bucket of a hash value. -/
def index (t : ChainedHash α κ) (hash : BitVec 32) : ℕ := hash.toNat % t.max

/-- SOURCE: hash_list.h:90-108 -/
def hashInsert [DecidableEq α] [HashFields κ] (t : ChainedHash α κ) (key : Option α) : ChainedHash α κ × ℤ :=
  match key, t.buckets with
  | some key, some buckets =>
    if (t.obj key).hash_value ≠ 0 ∨ (t.obj key).next_entry ≠ none then (t, -2)
    else
      let hash := HashFields.hashValue (t.obj key).key
      let idx := t.index hash
      ({ t with
          buckets := some (Function.update buckets idx (some key))
          count := (t.count + 1).bmod (2 ^ 32)
          obj := Function.update t.obj key ⟨buckets idx, hash, (t.obj key).key⟩ }, 0)
  | _, _ => (t, -1)

/-- An entry has the hash value of a key and compares equal to it.
SOURCE: hash_list.h:124-130, 160 -/
def isMatch [HashFields κ] (t : ChainedHash α κ) (key : κ) (item : α) : Bool :=
  (t.obj item).hash_value = HashFields.hashValue key && HashFields.hashCmp (t.obj item).key key = 0

/-- The loop over the bucket of a key, up to the first match, with the entry before it.  A chain of a table with
`_count` entries has no more than these, so a loop that has gone over more of them never ends.
SOURCE: hash_list.h:119-132, 153-160 -/
def chainLoop [HashFields κ] (t : ChainedHash α κ) (buckets : ℕ → Option α) (key : κ) :
    Option (Option (Option α × α)) :=
  searchChain (fun e => (t.obj e).next_entry) (t.isMatch key) (t.count.toNat + 1) none
    (buckets (t.index (HashFields.hashValue key)))

/-- `HashFind`, if its loop ends.
SOURCE: hash_list.h:113-134 -/
def hashFind [HashFields κ] (t : ChainedHash α κ) (key : Option κ) : Option (Option α) :=
  match key, t.buckets with
  | some key, some buckets => (t.chainLoop buckets key).map (Option.map Prod.snd)
  | _, _ => some none

/-- An entry is taken out of its bucket, from behind `prev`.
SOURCE: hash_list.h:161-170 -/
def unlink [DecidableEq α] (t : ChainedHash α κ) (buckets : ℕ → Option α) (idx : ℕ) (prev : Option α) (item : α) :
    ChainedHash α κ :=
  let next := (t.obj item).next_entry
  let linked := match prev with
    | none => { t with buckets := some (Function.update buckets idx next) }
    | some prev => { t with obj := Function.update t.obj prev { t.obj prev with next_entry := next } }
  { linked with
    count := (t.count - 1).bmod (2 ^ 32)
    obj := Function.update linked.obj item ⟨none, 0, (linked.obj item).key⟩ }

/-- `HashRemove`, if its loop ends.
SOURCE: hash_list.h:150-174 -/
def hashRemove [DecidableEq α] [HashFields κ] (t : ChainedHash α κ) (key : Option κ) : Option (ChainedHash α κ) :=
  match key, t.buckets with
  | some key, some buckets =>
    (t.chainLoop buckets key).map fun
      | none => t
      | some (prev, item) => t.unlink buckets (t.index (HashFields.hashValue key)) prev item
  | _, _ => some t

/-- SOURCE: hash_list.h:193-206 -/
def hashGetFirst (t : ChainedHash α κ) : Option α :=
  t.buckets.bind fun buckets => (List.range t.max).findSome? buckets

/-- SOURCE: hash_list.h:83-85 -/
def hashSize (t : ChainedHash α κ) : ℤ := t.count

end ChainedHash

/-- The calls on a table; the fields of an object are also written in between. -/
inductive HashCall (α κ : Type) where
  | insert (key : Option α)
  | find (key : Option κ)
  | remove (key : Option κ)
  | getFirst
  | write (e : α) (key : κ)

/-- The table after a call; after one that does not end, it is as it was. -/
def ChainedHash.step {α κ : Type} [DecidableEq α] [HashFields κ] (t : ChainedHash α κ) : HashCall α κ → ChainedHash α κ
  | .insert key => (t.hashInsert key).1
  | .find _ => t
  | .remove key => (t.hashRemove key).getD t
  | .getFirst => t
  | .write e key => { t with obj := Function.update t.obj e { t.obj e with key := key } }

end FStack.Model
