import CargoStylus.Json
import Mathlib.Data.List.Basic

/-!
# JavaScript objects and arrays

An object is its own properties in the order they were added. Arrays of objects live in a
heap and are shared by reference, so pushing onto one changes it under every name it has.
`Heap.json` follows the references and gives the JSON of a value. Each operation on an array
has a lemma for the array it is about and one for the others.
-/

namespace Js

open Rust

/-- A value. An array is its place in the heap. -/
inductive Value where
  | string (s : String)
  | number (n : U64)
  | array (r : ℕ)
deriving DecidableEq

/-- The own properties of an object, in the order they were added. -/
abbrev Object := List (String × Value)

namespace Object

/-- `o[k] = v` : a property that exists keeps its place. -/
def set : Object → String → Value → Object
  | [], k, v => [(k, v)]
  | (j, w) :: o, k, v => if j = k then (k, v) :: o else (j, w) :: set o k v

/-- `Object.assign(o, src)` -/
def assign (o src : Object) : Object :=
  src.foldl (fun o e => o.set e.1 e.2) o

/-- `o[k]`, and `none` for `undefined`. -/
def get? (o : Object) (k : String) : Option Value :=
  o.lookup k

end Object

/-- The arrays, by their place. -/
abbrev Heap := List (List Object)

namespace Heap

/-- `[]` : the heap with a new array, whose reference is the length of the heap before. -/
def alloc (h : Heap) : Heap :=
  h ++ [[]]

/-- `array.push(o)` -/
def push (h : Heap) (r : ℕ) (o : Object) : Heap :=
  h.modify r (· ++ [o])

/-- The heap after `array.pop()`. -/
def pop (h : Heap) (r : ℕ) : Heap :=
  h.modify r List.dropLast

/-- The JSON of an object, once that of a value is known. -/
def objectJson (value : Value → Option Json.Value) (o : Object) : Option Json.Value := do
  let fields ← o.mapM fun e => do return (e.1, ← value e.2)
  return .object fields

/-- The JSON of a value, with arrays followed `fuel` deep. -/
def json (h : Heap) : ℕ → Value → Option Json.Value
  | _, .string s => some (.string s)
  | _, .number n => some (.number (.posInt n))
  | 0, .array _ => none
  | fuel + 1, .array r => do
    let objects ← h[r]?
    let values ← objects.mapM (objectJson (h.json fuel))
    return .array values

theorem json_array {h : Heap} {fuel : ℕ} {r : ℕ} {objects : List Object}
    {values : List Json.Value} (hr : h[r]? = some objects)
    (hvalues : objects.mapM (objectJson (h.json fuel)) = some values) :
    h.json (fuel + 1) (.array r) = some (.array values) := by
  simp [json, hr, hvalues]

@[simp] theorem length_alloc (h : Heap) : h.alloc.length = h.length + 1 := by
  simp [alloc]

@[simp] theorem length_push (h : Heap) (r : ℕ) (o : Object) :
    (h.push r o).length = h.length := by
  simp [push]

@[simp] theorem length_pop (h : Heap) (r : ℕ) : (h.pop r).length = h.length := by
  simp [pop]

theorem getElem?_alloc_lt {h : Heap} {r : ℕ} (hr : r < h.length) : h.alloc[r]? = h[r]? := by
  simp [alloc, List.getElem?_append, hr]

@[simp] theorem getElem?_alloc_length (h : Heap) : h.alloc[h.length]? = some [] := by
  simp [alloc]

@[simp] theorem getElem?_push_self (h : Heap) (r : ℕ) (o : Object) :
    (h.push r o)[r]? = h[r]?.map (· ++ [o]) := by
  simp [push]

theorem getElem?_push_ne {h : Heap} {r s : ℕ} {o : Object} (hrs : r ≠ s) :
    (h.push r o)[s]? = h[s]? := by
  simp [push, hrs]

@[simp] theorem getElem?_pop_self (h : Heap) (r : ℕ) :
    (h.pop r)[r]? = h[r]?.map List.dropLast := by
  simp [pop]

theorem getElem?_pop_ne {h : Heap} {r s : ℕ} (hrs : r ≠ s) : (h.pop r)[s]? = h[s]? := by
  simp [pop, hrs]

end Heap

end Js
