import Mathlib.Data.Rat.Init
import DamHopper.Lib.AssocMap

/-!
# Js — JavaScript values as a parser returns them

The values a program sees when it reads an `unknown`: no functions, no symbols, no
prototype chain. An object is its list of fields in the order they were written;
of two fields with one name the later wins (`props`). Reading a field that is not
there gives `undefined` (`get`), and an array is an object with index keys. Finite
numbers are rationals.
-/

namespace DamHopper

inductive JsNumber where
  | finite (value : ℚ)
  | posInf
  | negInf
  | nan
  deriving Repr, DecidableEq

inductive Js where
  | undefined
  | null
  | bool (value : Bool)
  | num (value : JsNumber)
  | str (value : String)
  | arr (elems : List Js)
  | obj (fields : List (String × Js))

namespace Js

/-- `typeof x === "object" && x !== null` -/
def isObject : Js → Bool
  | .arr _ | .obj _ => true
  | _ => false

def isUndefined : Js → Bool
  | .undefined => true
  | _ => false

def isNull : Js → Bool
  | .null => true
  | _ => false

def asStr : Js → Option String
  | .str value => some value
  | _ => none

def asBool : Js → Option Bool
  | .bool value => some value
  | _ => none

/-- A number that passes `Number.isFinite`. -/
def asFinite : Js → Option ℚ
  | .num (.finite value) => some value
  | _ => none

/-- A value that is there. -/
def present (x : Js) : Option Js := if x.isUndefined then none else some x

/-- `Array.isArray` -/
def asArr : Js → Option (List Js)
  | .arr elems => some elems
  | _ => none

/-- The code points `String.prototype.trim` strips. -/
def isSpace (c : Char) : Bool :=
  c.toNat ∈ [0x9, 0xA, 0xB, 0xC, 0xD, 0x20, 0xA0, 0x1680, 0x2028, 0x2029, 0x202F, 0x205F,
    0x3000, 0xFEFF] || (0x2000 ≤ c.toNat && c.toNat ≤ 0x200A)

def trim (s : String) : String :=
  String.ofList (((s.toList.dropWhile isSpace).reverse.dropWhile isSpace).reverse)

/-- `s || fallback` -/
def orDefault (s fallback : String) : String := if s = "" then fallback else s

/-- `s.length`: UTF-16 code units. -/
def length (s : String) : Nat :=
  (s.toList.map fun c => if c.toNat < 0x10000 then 1 else 2).sum

/-- The own fields of an object, as `Object.entries` lists them. -/
def props : Js → AssocMap String Js
  | .obj fields => .ofList fields
  | .arr elems => .ofList (elems.zipIdx.map fun e => (toString e.2, e.1))
  | _ => .empty

/-- `x[key]` -/
def get (x : Js) (key : String) : Js := (x.props.get? key).getD .undefined

/-- The last field with that name. -/
def lookup : List (String × Js) → String → Option Js
  | [], _ => none
  | (name, value) :: rest, key =>
    (lookup rest key).or (if key = name then some value else none)

/-- A field that is left out where there is no value. -/
def field? {α : Type} (name : String) (x : Option α) (write : α → Js) :
    List (String × Js) := x.elim [] fun value => [(name, write value)]

theorem lookup_append {fields rest : List (String × Js)} {key : String} :
    lookup (fields ++ rest) key = (lookup rest key).or (lookup fields key) := by
  induction fields with
  | nil => simp [lookup]
  | cons field fields ih =>
    rw [List.cons_append, lookup, ih, lookup, Option.or_assoc]

theorem lookup_field? {α : Type} {name : String} {x : Option α} {write : α → Js} {key : String} :
    lookup (field? name x write) key = if key = name then x.map write else none := by
  cases x with
  | none | some value => simp [field?, lookup]

theorem orDefault_idem {fallback s : String} :
    orDefault (orDefault s fallback) fallback = orDefault s fallback := by
  by_cases hs : s = "" <;> simp [orDefault, hs]

@[simp] theorem present_getD {x : Js} : x.present.getD .undefined = x := by
  cases x <;> rfl

variable (fields : List (String × Js)) (key : String)

theorem get?_props_obj : (obj fields).props.get? key = lookup fields key := by
  induction fields with
  | nil => rfl
  | cons field rest ih =>
    rw [props, AssocMap.get?_ofList_cons, lookup]
    rw [props] at ih
    rw [ih]

theorem get_obj : (obj fields).get key = (lookup fields key).getD .undefined := by
  rw [get, get?_props_obj]

theorem sizeOf_list_pos {α : Type} [SizeOf α] (l : List α) : 0 < sizeOf l := by
  cases l with
  | nil => simp
  | cons a l =>
    rw [List.cons.sizeOf_spec]
    omega

/-- A field is smaller than its object: reading into a value terminates. -/
theorem sizeOf_get_lt {x : Js} (h : x.isObject = true) {key : String} :
    sizeOf (x.get key) < sizeOf x := by
  have hsmall : ∀ v : Js, x.props.get? key = some v → sizeOf v < sizeOf x := by
    intro v hv
    cases x with
    | obj fields =>
      have hmem := AssocMap.mem_of_get?_ofList hv
      have hlt := List.sizeOf_lt_of_mem hmem
      simp only [Prod.mk.sizeOf_spec, obj.sizeOf_spec] at hlt ⊢
      omega
    | arr elems =>
      have hmem := AssocMap.mem_of_get?_ofList hv
      obtain ⟨⟨e, i⟩, he, ⟨⟩⟩ := List.mem_map.mp hmem
      have hlt := List.sizeOf_lt_of_mem (List.fst_mem_of_mem_zipIdx he)
      simp only [arr.sizeOf_spec] at hlt ⊢
      omega
    | undefined | null | bool value | num value | str value => cases h
  unfold get
  cases hv : x.props.get? key with
  | none =>
    rw [Option.getD_none]
    cases x with
    | obj fields =>
      have hpos := sizeOf_list_pos fields
      simp only [undefined.sizeOf_spec, obj.sizeOf_spec]
      omega
    | arr elems =>
      have hpos := sizeOf_list_pos elems
      simp only [undefined.sizeOf_spec, arr.sizeOf_spec]
      omega
    | undefined | null | bool value | num value | str value => cases h
  | some v => exact hsmall v hv

theorem sizeOf_elem_lt {x : Js} {elems : List Js} (h : x.asArr = some elems) {e : Js}
    (he : e ∈ elems) : sizeOf e < sizeOf x := by
  cases x with
  | arr xs =>
    cases h
    have hlt := List.sizeOf_lt_of_mem he
    simp only [arr.sizeOf_spec]
    omega
  | undefined | null | bool value | num value | str value | obj fields => cases h

end Js

end DamHopper
