import Ident160.Binary64

/-!
Values of settings documents, and how one document is laid over another. Tables keep their
entries in the order in which they were written; a name occurs once in a table that was built by
the operations here. Addressing a place makes it exist: what stands in the way is replaced. An
array grows as far as its greatest index asks for, so that not every place can be addressed where
the length of arrays has a bound. It can be decided whether two values are the same.
-/

namespace Ident160.Document

inductive Value where
  | null
  | boolean (b : Bool)
  | integer (n : Int)
  | float (x : Binary64)
  | text (s : String)
  | array (items : List Value)
  | table (entries : List (String × Value))

abbrev Entries := List (String × Value)

namespace Value

/-- The entries of a table; any other value counts as an empty one. -/
def entries : Value → Entries
  | .table es => es
  | _ => []

/-- The items of an array; any other value counts as an empty one. -/
def items : Value → List Value
  | .array xs => xs
  | _ => []

def lookup (v : Value) (name : String) : Option Value := v.entries.lookup name

/-- Changes the value of a name, which is null if the name is new. -/
def alterEntry (name : String) (f : Value → Value) : Entries → Entries
  | [] => [(name, f .null)]
  | (key, v) :: es => if key = name then (key, f v) :: es else (key, v) :: alterEntry name f es

/-- Changes the item at a position; nulls fill the way to a position beyond the end. -/
def alterItem : Nat → (Value → Value) → List Value → List Value
  | 0, f, [] => [f .null]
  | 0, f, x :: xs => f x :: xs
  | n + 1, f, [] => .null :: alterItem n f []
  | n + 1, f, x :: xs => x :: alterItem n f xs

/-- Changes the item at a position that counts from the end if it is negative; nulls fill the
way to a position before the start. -/
def alterIndex (i : Int) (f : Value → Value) (xs : List Value) : List Value :=
  match i with
  | .ofNat n => alterItem n f xs
  | .negSucc n =>
    if n < xs.length then
      alterItem (xs.length - (n + 1)) f xs
    else
      alterItem 0 f (List.replicate (n + 1 - xs.length) .null ++ xs)

inductive Step where
  | key (name : String)
  | index (i : Int)
deriving DecidableEq

/-- Changes the value at the end of a path. What is on the way becomes a table or an array as the
path needs it. -/
def alterAt : List Step → (Value → Value) → Value → Value
  | [], f, v => f v
  | .key name :: path, f, v => .table (alterEntry name (alterAt path f) v.entries)
  | .index i :: path, f, v => .array (alterIndex i (alterAt path f) v.items)

def alter (v : Value) (path : List Step) (f : Value → Value) : Value := alterAt path f v

/-- The number of items that an array needs to have one at a position. -/
def itemsFor : Int → Nat
  | .ofNat n => n + 1
  | .negSucc n => n + 1

/-- The item at a position that counts from the end if it is negative. -/
def item? (i : Int) (xs : List Value) : Option Value :=
  match i with
  | .ofNat n => xs[n]?
  | .negSucc n => if n < xs.length then xs[xs.length - (n + 1)]? else none

/-- Whether no array on a path has to grow beyond a bound. -/
def addressable (capacity : Nat) : List Step → Value → Bool
  | [], _ => true
  | .key name :: path, v => addressable capacity path ((v.lookup name).getD .null)
  | .index i :: path, v =>
    decide (itemsFor i ≤ max capacity v.items.length) &&
      addressable capacity path ((item? i v.items).getD .null)

mutual

/-- Lays a value over another: tables are merged name by name, and anything else replaces what
was there. -/
def cover : Value → Value → Value
  | .table es, below => coverEntries es below.entries
  | v, _ => v

def coverEntries : Entries → Entries → Value
  | [], below => .table below
  | (name, v) :: es, below => coverEntries es (alterEntry name (cover v) below)

end

/-! ### Equality -/

mutual

def same : Value → Value → Bool
  | .null, .null => true
  | .boolean a, .boolean b => a = b
  | .integer m, .integer n => m = n
  | .float x, .float y => x = y
  | .text s, .text t => s = t
  | .array xs, .array ys => sameItems xs ys
  | .table es, .table fs => sameEntries es fs
  | _, _ => false

def sameItems : List Value → List Value → Bool
  | [], [] => true
  | v :: xs, w :: ys => same v w && sameItems xs ys
  | _, _ => false

def sameEntries : Entries → Entries → Bool
  | [], [] => true
  | (key, v) :: es, (name, w) :: fs => key = name && same v w && sameEntries es fs
  | _, _ => false

end

mutual

theorem same_iff : ∀ v w, same v w = true ↔ v = w
  | .null, w => by cases w <;> simp [same]
  | .boolean b, w => by cases w <;> simp [same]
  | .integer n, w => by cases w <;> simp [same]
  | .float x, w => by cases w <;> simp [same]
  | .text s, w => by cases w <;> simp [same]
  | .array xs, w => by cases w <;> simp [same, sameItems_iff xs]
  | .table es, w => by cases w <;> simp [same, sameEntries_iff es]

theorem sameItems_iff : ∀ xs ys, sameItems xs ys = true ↔ xs = ys
  | [], ys => by cases ys <;> simp [sameItems]
  | v :: xs, ys => by cases ys <;> simp [sameItems, same_iff v, sameItems_iff xs]

theorem sameEntries_iff : ∀ es fs, sameEntries es fs = true ↔ es = fs
  | [], fs => by cases fs <;> simp [sameEntries]
  | (key, v) :: es, fs => by
    cases fs <;> simp [sameEntries, same_iff v, sameEntries_iff es, Prod.ext_iff]

end

instance : DecidableEq Value := fun v w => decidable_of_iff (same v w = true) (same_iff v w)

end Value

end Ident160.Document
