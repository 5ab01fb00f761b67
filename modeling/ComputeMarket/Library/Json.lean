import Mathlib.Data.Rat.Defs
import Mathlib.Data.String.Basic

/-!
# Dynamic values

The values a dynamically typed program reads out of a JSON text: null, booleans, integers,
floating-point numbers, texts, lists, and objects with their members in the order they were
written. Where a key is written twice, the first member counts.

Two values are `Json.Same` when the program's `==` holds between them: a boolean and a
floating-point number equal the integer of their value, and the order of an object's members
does not matter. `canon` picks one value of each class.
-/

namespace ComputeMarket

/-! ## Members under their keys -/

/-- Members under their keys, the first of a key counting. -/
abbrev Fields (α : Type*) := List (String × α)

namespace Fields

variable {α : Type*}

def find : Fields α → String → Option α
  | [], _ => none
  | (name, value) :: rest, key => if name = key then some value else find rest key

/-- Overwrite the member of a key, or append one where there is none. -/
def put : Fields α → String → α → Fields α
  | [], key, value => [(key, value)]
  | (name, old) :: rest, key, value =>
    if name = key then (name, value) :: rest else (name, old) :: put rest key value

/-- Insert in front of the first larger key, in place of a member of the same key. -/
def place (key : String) (value : α) : Fields α → Fields α
  | [] => [(key, value)]
  | (name, old) :: rest =>
    if key < name then (key, value) :: (name, old) :: rest
    else if key = name then (key, value) :: rest
    else (name, old) :: place key value rest

theorem find_cons (name key : String) (value : α) (rest : Fields α) :
    find ((name, value) :: rest) key = if name = key then some value else find rest key := rfl

theorem mem_of_find {fields : Fields α} {key : String} {value : α}
    (found : fields.find key = some value) : (key, value) ∈ fields := by
  induction fields with
  | nil => cases found
  | cons member rest ih =>
    obtain ⟨name, first⟩ := member
    rw [find_cons] at found
    split at found
    next same =>
        cases found
        exact same ▸ List.mem_cons_self
    next => exact List.mem_cons_of_mem _ (ih found)

theorem find_put (fields : Fields α) (key other : String) (value : α) :
    (fields.put key value).find other = if key = other then some value else fields.find other := by
  induction fields with
  | nil => rfl
  | cons member rest ih =>
    obtain ⟨name, old⟩ := member
    by_cases here : name = key
    · subst here
      simp only [put, if_pos, find_cons]
      split <;> rfl
    · simp only [put, if_neg here, find_cons, ih]
      by_cases first : name = other
      · subst first
        simp [Ne.symm here]
      · simp [first]

@[simp] theorem find_put_self (fields : Fields α) (key : String) (value : α) :
    (fields.put key value).find key = some value := by
  rw [find_put, if_pos rfl]

end Fields

inductive Json
  | null
  | bool (b : Bool)
  | int (i : Int)
  | float (q : Rat)
  | str (s : String)
  | list (items : List Json)
  | obj (members : List (String × Json))
  deriving Inhabited

namespace Json

mutual

/-- One value of each class of equal values: numbers as rationals, members sorted. -/
def canon : Json → Json
  | .null => .null
  | .bool b => .float (if b then 1 else 0)
  | .int i => .float i
  | .float q => .float q
  | .str s => .str s
  | .list items => .list (canonItems items)
  | .obj members => .obj (canonMembers members)

def canonItems : List Json → List Json
  | [] => []
  | item :: rest => item.canon :: canonItems rest

def canonMembers : Fields Json → Fields Json
  | [] => []
  | (key, value) :: rest => Fields.place key value.canon (canonMembers rest)

end

def get (members : Fields Json) (key : String) : Json := (members.find key).getD .null

def truthy : Json → Bool
  | .null => false
  | .bool b => b
  | .int i => i ≠ 0
  | .float q => q ≠ 0
  | .str s => s ≠ ""
  | .list items => !items.isEmpty
  | .obj members => !members.isEmpty

/-! ## Equality of the program -/

/-- `==` of the dynamic language. -/
def Same (first second : Json) : Prop := first.canon = second.canon

mutual

def decEq : (first second : Json) → Decidable (first = second)
  | .null, .null => .isTrue rfl
  | .bool a, .bool b => decidable_of_iff (a = b) (by simp)
  | .int a, .int b => decidable_of_iff (a = b) (by simp)
  | .float a, .float b => decidable_of_iff (a = b) (by simp)
  | .str a, .str b => decidable_of_iff (a = b) (by simp)
  | .list a, .list b =>
    match decEqItems a b with
    | .isTrue same => .isTrue (by rw [same])
    | .isFalse differ => .isFalse (by simpa using differ)
  | .obj a, .obj b =>
    match decEqMembers a b with
    | .isTrue same => .isTrue (by rw [same])
    | .isFalse differ => .isFalse (by simpa using differ)
  | .null, .bool _ | .null, .int _ | .null, .float _ | .null, .str _ | .null, .list _
  | .null, .obj _ | .bool _, .null | .bool _, .int _ | .bool _, .float _ | .bool _, .str _
  | .bool _, .list _ | .bool _, .obj _ | .int _, .null | .int _, .bool _ | .int _, .float _
  | .int _, .str _ | .int _, .list _ | .int _, .obj _ | .float _, .null | .float _, .bool _
  | .float _, .int _ | .float _, .str _ | .float _, .list _ | .float _, .obj _ | .str _, .null
  | .str _, .bool _ | .str _, .int _ | .str _, .float _ | .str _, .list _ | .str _, .obj _
  | .list _, .null | .list _, .bool _ | .list _, .int _ | .list _, .float _ | .list _, .str _
  | .list _, .obj _ | .obj _, .null | .obj _, .bool _ | .obj _, .int _ | .obj _, .float _
  | .obj _, .str _ | .obj _, .list _ => .isFalse nofun

def decEqItems : (first second : List Json) → Decidable (first = second)
  | [], [] => .isTrue rfl
  | [], _ :: _ | _ :: _, [] => .isFalse nofun
  | a :: first, b :: second =>
    match decEq a b, decEqItems first second with
    | .isTrue head, .isTrue tail => .isTrue (by rw [head, tail])
    | .isFalse differ, _ => .isFalse fun same => differ (List.cons.inj same).1
    | _, .isFalse differ => .isFalse fun same => differ (List.cons.inj same).2

def decEqMembers : (first second : List (String × Json)) → Decidable (first = second)
  | [], [] => .isTrue rfl
  | [], _ :: _ | _ :: _, [] => .isFalse nofun
  | (k, a) :: first, (l, b) :: second =>
    match decEq a b, decEqMembers first second with
    | .isTrue head, .isTrue tail =>
      decidable_of_iff (k = l) (by rw [head, tail]; simp)
    | .isFalse differ, _ =>
      .isFalse fun same => differ (Prod.mk.inj (List.cons.inj same).1).2
    | _, .isFalse differ => .isFalse fun same => differ (List.cons.inj same).2

end

instance : DecidableEq Json := decEq

instance (first second : Json) : Decidable (Same first second) :=
  inferInstanceAs (Decidable (_ = _))

example : Same (.obj [("b", .int 1), ("a", .bool true)]) (.obj [("a", .int 1), ("b", .float 1)]) := by
  decide

end Json

end ComputeMarket
