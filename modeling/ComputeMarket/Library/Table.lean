import Mathlib.Data.List.Dedup
import Mathlib.Algebra.Order.BigOperators.Group.List

/-!
# Keyed tables

A database table with a primary key: a list of rows in insertion order whose
keys are distinct. The distinctness is a field, so a table with two rows of one
key cannot be built, and every lookup is unambiguous.

`Table.insert` takes the evidence that the key is fresh. `Table.put` overwrites
the row of its key and appends it where there is none. Membership after each is
one lemma (`mem_insert`, `mem_put`), and `sum_put` says how a sum over the rows
moves when one row is rewritten while the summand may change at that row only.

`Dict` is the table of a mapping's items, in insertion order.
-/

namespace ComputeMarket

/-- Rows of `ρ` are told apart by a key in `κ`. -/
class Keyed (ρ : Type*) (κ : outParam Type*) where
  key : ρ → κ

export Keyed (key)

structure Table (ρ : Type*) {κ : Type*} [Keyed ρ κ] where
  rows : List ρ
  distinct : (rows.map key).Nodup
  deriving DecidableEq

namespace Table

variable {ρ κ : Type*} [Keyed ρ κ]

instance : Membership ρ (Table ρ) := ⟨fun table row => row ∈ table.rows⟩

def empty : Table ρ := ⟨[], List.nodup_nil⟩

theorem mem_rows {table : Table ρ} {row : ρ} : row ∈ table.rows ↔ row ∈ table := Iff.rfl

@[simp] theorem not_mem_empty {row : ρ} : row ∉ (empty : Table ρ) := List.not_mem_nil

theorem eq_of_key {table : Table ρ} {first second : ρ} (left : first ∈ table)
    (right : second ∈ table) (same : key first = key second) : first = second :=
  List.inj_on_of_nodup_map table.distinct left right same

variable {M : Type*} [AddCommMonoid M]

/-- The sum of `f` over the rows. -/
def sum (table : Table ρ) (f : ρ → M) : M := (table.rows.map f).sum

theorem sum_congr {table : Table ρ} {f g : ρ → M} (same : ∀ row ∈ table, f row = g row) :
    table.sum f = table.sum g :=
  congrArg List.sum (List.map_congr_left same)

variable [DecidableEq κ]

def find? (table : Table ρ) (k : κ) : Option ρ :=
  table.rows.find? fun row => key row = k

theorem find?_eq_some {table : Table ρ} {k : κ} {row : ρ} :
    table.find? k = some row ↔ row ∈ table ∧ key row = k := by
  constructor
  · intro found
    exact ⟨List.mem_of_find?_eq_some found, by simpa using List.find?_some found⟩
  · rintro ⟨member, rfl⟩
    cases found : table.find? (key row) with
    | none =>
      have absent := List.find?_eq_none.mp found row member
      simp at absent
    | some other =>
      have sameKey : key other = key row := by simpa using List.find?_some found
      rw [eq_of_key (List.mem_of_find?_eq_some found) member sameKey]

theorem find?_key {table : Table ρ} {row : ρ} (member : row ∈ table) :
    table.find? (key row) = some row :=
  find?_eq_some.mpr ⟨member, rfl⟩

theorem find?_eq_none {table : Table ρ} {k : κ} :
    table.find? k = none ↔ ∀ row ∈ table, key row ≠ k := by
  simp only [find?, List.find?_eq_none, decide_eq_true_eq, mem_rows, ne_eq]

def insert (table : Table ρ) (row : ρ) (fresh : table.find? (key row) = none) : Table ρ where
  rows := table.rows ++ [row]
  distinct := by
    rw [List.map_append, List.map_singleton]
    refine List.Nodup.append table.distinct (List.nodup_singleton _) ?_
    intro k old new
    obtain ⟨other, member, rfl⟩ := List.mem_map.mp old
    exact find?_eq_none.mp fresh other member (List.mem_singleton.mp new)

theorem mem_insert {table : Table ρ} {row other : ρ} {fresh : table.find? (key row) = none} :
    other ∈ table.insert row fresh ↔ other ∈ table ∨ other = row := by
  change other ∈ table.rows ++ [row] ↔ _
  rw [List.mem_append, List.mem_singleton]
  exact Iff.rfl

def modify (table : Table ρ) (f : ρ → ρ) (keeps : ∀ row, key (f row) = key row) : Table ρ where
  rows := table.rows.map f
  distinct := by
    rw [List.map_map, show key ∘ f = key from funext keeps]
    exact table.distinct

omit [DecidableEq κ] in
theorem mem_modify {table : Table ρ} {f : ρ → ρ} {keeps : ∀ row, key (f row) = key row}
    {row : ρ} : row ∈ table.modify f keeps ↔ ∃ old ∈ table, f old = row :=
  List.mem_map

theorem find?_modify (table : Table ρ) (f : ρ → ρ) (keeps : ∀ row, key (f row) = key row)
    (k : κ) : (table.modify f keeps).find? k = (table.find? k).map f := by
  unfold find? modify
  rw [List.find?_map]
  congr 2
  funext row
  simp [keeps]

/-- The rows with the row of `row`'s key overwritten. -/
private def overwrite (row : ρ) (rows : List ρ) : List ρ :=
  rows.map fun old => if key old = key row then row else old

private theorem map_key_overwrite (row : ρ) (rows : List ρ) :
    (overwrite row rows).map key = rows.map key := by
  rw [overwrite, List.map_map]
  refine List.map_congr_left fun old _ => ?_
  by_cases same : key old = key row
  · simp [same]
  · simp [same]

/-- Overwrite the row of `row`'s key, or append it where there is none. -/
def put (table : Table ρ) (row : ρ) : Table ρ :=
  if fresh : table.find? (key row) = none then
    table.insert row fresh
  else
    ⟨overwrite row table.rows, by rw [map_key_overwrite]; exact table.distinct⟩

theorem mem_put {table : Table ρ} {row other : ρ} :
    other ∈ table.put row ↔ other = row ∨ (other ∈ table ∧ key other ≠ key row) := by
  unfold put
  split
  · next fresh =>
    rw [mem_insert]
    constructor
    · rintro (old | new)
      · exact .inr ⟨old, find?_eq_none.mp fresh other old⟩
      · exact .inl new
    · rintro (new | ⟨old, _⟩)
      · exact .inr new
      · exact .inl old
  · next taken =>
    change other ∈ overwrite row table.rows ↔ _
    rw [overwrite, List.mem_map]
    constructor
    · rintro ⟨old, member, rfl⟩
      by_cases same : key old = key row
      · exact .inl (by simp [same])
      · exact .inr (by simpa [same] using And.intro (mem_rows.mp member) same)
    · rintro (rfl | ⟨member, differs⟩)
      · obtain ⟨old, found⟩ := Option.ne_none_iff_exists'.mp taken
        obtain ⟨member, same⟩ := find?_eq_some.mp found
        exact ⟨old, member, by simp [same]⟩
      · exact ⟨other, member, by simp [differs]⟩

/-- What holds between any two rows, and between each of the others and a row put, holds behind
the put. -/
theorem pairs_put {table : Table ρ} {row : ρ} {P : ρ → ρ → Prop}
    (kept : ∀ first ∈ table, ∀ second ∈ table, P first second) (own : P row row)
    (others : ∀ old ∈ table, key old ≠ key row → P row old ∧ P old row) :
    ∀ first ∈ table.put row, ∀ second ∈ table.put row, P first second := by
  intro first left second right
  rcases mem_put.mp left with rfl | ⟨leftOld, leftApart⟩
  · rcases mem_put.mp right with rfl | ⟨rightOld, rightApart⟩
    · exact own
    · exact (others second rightOld rightApart).1
  · rcases mem_put.mp right with rfl | ⟨rightOld, _⟩
    · exact (others first leftOld leftApart).2
    · exact kept first leftOld second rightOld

@[simp] theorem find?_put_self (table : Table ρ) (row : ρ) :
    (table.put row).find? (key row) = some row :=
  find?_eq_some.mpr ⟨mem_put.mpr (.inl rfl), rfl⟩

theorem find?_put_of_ne {table : Table ρ} {row : ρ} {k : κ} (differs : k ≠ key row) :
    (table.put row).find? k = table.find? k := by
  cases found : table.find? k with
  | none =>
    rw [find?_eq_none] at found ⊢
    intro other member
    rcases mem_put.mp member with rfl | ⟨old, _⟩
    · exact fun same => differs same.symm
    · exact found other old
  | some old =>
    obtain ⟨member, rfl⟩ := find?_eq_some.mp found
    exact find?_key (mem_put.mpr (.inr ⟨member, differs⟩))

theorem find?_put (table : Table ρ) (row : ρ) (k : κ) :
    (table.put row).find? k = if k = key row then some row else table.find? k := by
  split
  · next same =>
    rw [same]
    exact find?_put_self table row
  · next differs => exact find?_put_of_ne differs

/-- A row that a filter rejects only takes rows out of what the filter leaves. -/
theorem filter_put_sublist (table : Table ρ) {row : ρ} {p : ρ → Bool} (rejected : p row = false) :
    ((table.put row).rows.filter p).Sublist (table.rows.filter p) := by
  unfold put
  split
  · change ((table.rows ++ [row]).filter p).Sublist _
    rw [List.filter_append, List.filter_cons_of_neg (by rw [rejected]; exact Bool.false_ne_true),
      List.filter_nil, List.append_nil]
  · change ((overwrite row table.rows).filter p).Sublist _
    unfold overwrite
    induction table.rows with
    | nil => exact List.Sublist.refl _
    | cons head tail ih =>
      rw [List.map_cons]
      by_cases same : key head = key row
      · rw [if_pos same, List.filter_cons_of_neg (by rw [rejected]; exact Bool.false_ne_true)]
        exact ih.trans ((List.sublist_cons_self head tail).filter p)
      · rw [if_neg same]
        cases kept : p head with
        | true =>
          rw [List.filter_cons_of_pos kept, List.filter_cons_of_pos kept]
          exact ih.cons_cons head
        | false =>
          have dropped : ¬p head = true := by rw [kept]; exact Bool.false_ne_true
          rw [List.filter_cons_of_neg dropped, List.filter_cons_of_neg dropped]
          exact ih

theorem insert_eq_put {table : Table ρ} {row : ρ} (fresh : table.find? (key row) = none) :
    table.insert row fresh = table.put row := by
  rw [put, dif_pos fresh]

theorem put_of_mem {table : Table ρ} {row : ρ} (member : row ∈ table) :
    table.put row = table := by
  have taken : table.find? (key row) ≠ none := by
    rw [find?_key member]
    exact Option.some_ne_none row
  have kept : overwrite row table.rows = table.rows := by
    rw [overwrite]
    refine (List.map_congr_left fun other present => ?_).trans (List.map_id _)
    by_cases same : key other = key row
    · simp [eq_of_key present member same]
    · simp [same]
  rw [put, dif_neg taken]
  cases table
  simp only [Table.mk.injEq]
  exact kept

theorem sum_insert {table : Table ρ} {row : ρ} {fresh : table.find? (key row) = none}
    {f g : ρ → M} (same : ∀ other ∈ table, g other = f other) :
    (table.insert row fresh).sum g = table.sum f + g row := by
  rw [sum, insert, List.map_append, List.sum_append, List.map_singleton, List.sum_singleton,
    ← sum_congr same, sum]

private theorem sum_overwrite {rows : List ρ} (distinct : (rows.map key).Nodup) {old row : ρ}
    (member : old ∈ rows) (same : key old = key row) {f g : ρ → M}
    (elsewhere : ∀ other ∈ rows, key other ≠ key row → g other = f other) :
    ((overwrite row rows).map g).sum + f old = (rows.map f).sum + g row := by
  induction rows with
  | nil => cases member
  | cons head tail ih =>
    rw [List.map_cons, List.nodup_cons] at distinct
    obtain ⟨headFresh, tailDistinct⟩ := distinct
    have tailCong : ∀ other ∈ tail, key other ≠ key row → g other = f other :=
      fun other later => elsewhere other (List.mem_cons_of_mem _ later)
    rcases List.mem_cons.mp member with rfl | later
    · have untouched : ∀ other ∈ tail, key other ≠ key row := by
        intro other later sameKey
        exact headFresh (List.mem_map.mpr ⟨other, later, sameKey.trans same.symm⟩)
      have tailKept : (overwrite row tail).map g = tail.map f := by
        rw [overwrite, List.map_map]
        refine List.map_congr_left fun other later => ?_
        simp [untouched other later, tailCong other later (untouched other later)]
      have headRow : overwrite row (old :: tail) = row :: overwrite row tail := by
        simp [overwrite, same]
      rw [headRow, List.map_cons, List.sum_cons, List.map_cons, List.sum_cons, tailKept,
        add_assoc, add_comm (g row), add_comm (List.sum _) (f old)]
    · have headOther : key head ≠ key row := by
        intro sameKey
        exact headFresh (List.mem_map.mpr ⟨old, later, same.trans sameKey.symm⟩)
      have headKept : overwrite row (head :: tail) = head :: overwrite row tail := by
        simp [overwrite, headOther]
      rw [headKept, List.map_cons, List.sum_cons, List.map_cons, List.sum_cons, add_assoc,
        ih tailDistinct later tailCong, add_assoc,
        elsewhere head (List.mem_cons_self) headOther]

/-- Rewriting one row moves a sum by that row's terms alone, also where the
summand itself changes at that row. -/
theorem sum_put {table : Table ρ} {old row : ρ} (member : old ∈ table)
    (same : key old = key row) {f g : ρ → M}
    (elsewhere : ∀ other ∈ table, key other ≠ key row → g other = f other) :
    (table.put row).sum g + f old = table.sum f + g row := by
  have taken : table.find? (key row) ≠ none := by
    intro missing
    exact find?_eq_none.mp missing old member same
  rw [put, dif_neg taken]
  exact sum_overwrite table.distinct member same elsewhere

/-- A summand that changes at one row only moves the sum by that row's terms. -/
theorem sum_change {table : Table ρ} {row : ρ} (member : row ∈ table) {f g : ρ → M}
    (elsewhere : ∀ other ∈ table, key other ≠ key row → g other = f other) :
    table.sum g + f row = table.sum f + g row := by
  have moved := sum_put member rfl elsewhere
  rwa [put_of_mem member] at moved

end Table

/-! ## Mappings -/

instance {K V : Type*} : Keyed (K × V) K := ⟨Prod.fst⟩

/-- A mapping's items, in insertion order. -/
abbrev Dict (K V : Type*) : Type _ := Table (K × V)

namespace Dict

variable {K V W : Type*} [DecidableEq K]

def get? (dict : Dict K V) (k : K) : Option V :=
  (dict.find? k).map Prod.snd

def getD (dict : Dict K V) (k : K) (default : V) : V :=
  (dict.get? k).getD default

def set (dict : Dict K V) (k : K) (v : V) : Dict K V :=
  dict.put (k, v)

def keys (dict : Dict K V) : List K := dict.rows.map Prod.fst

def mapItems (dict : Dict K V) (f : K → V → W) : Dict K W where
  rows := dict.rows.map fun item => (item.1, f item.1 item.2)
  distinct := by
    rw [List.map_map]
    exact dict.distinct

/-- `mapItems` with a function of the value alone. -/
def mapValues (dict : Dict K V) (f : V → W) : Dict K W := dict.mapItems fun _ => f

def ofKeys (names : List K) (f : K → V) : Dict K V where
  rows := names.dedup.map fun k => (k, f k)
  distinct := by
    rw [List.map_map]
    exact (List.map_id names.dedup).symm ▸ List.nodup_dedup names

/-- The items in order, a later item overwriting an earlier one of its key. -/
def ofItems (items : List (K × V)) : Dict K V :=
  items.foldl (fun dict item => dict.set item.1 item.2) Table.empty

omit [DecidableEq K] in
theorem mem_mapItems {dict : Dict K V} {f : K → V → W} {item : K × W} :
    item ∈ dict.mapItems f ↔ ∃ old ∈ dict, (old.1, f old.1 old.2) = item :=
  List.mem_map

theorem get?_eq_some {dict : Dict K V} {k : K} {v : V} :
    dict.get? k = some v ↔ (k, v) ∈ dict := by
  unfold get?
  rw [Option.map_eq_some_iff]
  constructor
  · rintro ⟨⟨k', v'⟩, found, rfl⟩
    obtain ⟨member, rfl⟩ := Table.find?_eq_some.mp found
    exact member
  · intro member
    exact ⟨(k, v), Table.find?_key member, rfl⟩

theorem get?_eq_none {dict : Dict K V} {k : K} : dict.get? k = none ↔ k ∉ dict.keys := by
  unfold get?
  rw [Option.map_eq_none_iff, Table.find?_eq_none, keys, List.mem_map]
  constructor
  · rintro absent ⟨item, member, rfl⟩
    exact absent item member rfl
  · intro absent item member same
    exact absent ⟨item, member, same⟩

@[simp] theorem get?_empty (k : K) : get? (Table.empty : Dict K V) k = none := rfl

theorem get?_set (dict : Dict K V) (k k' : K) (v : V) :
    (dict.set k v).get? k' = if k' = k then some v else dict.get? k' := by
  unfold get? set
  split
  · next same =>
    subst same
    exact congrArg (Option.map Prod.snd) (Table.find?_put_self dict (k', v))
  next differs =>
  have otherKey : k' ≠ key (k, v) := differs
  rw [Table.find?_put_of_ne otherKey]

/-- Setting a key moves a sum over the items by that key's terms alone. -/
theorem sum_set {M : Type*} [AddCommMonoid M] (dict : Dict K V) (k : K) (v : V) (f : K × V → M) :
    (dict.set k v).sum f + ((dict.get? k).map fun old => f (k, old)).getD 0 =
      dict.sum f + f (k, v) := by
  unfold set
  cases found : dict.find? k with
  | none =>
    have absent : dict.get? k = none := by
      rw [get?, found, Option.map_none]
    have fresh : dict.find? (key (k, v)) = none := found
    rw [absent, ← Table.insert_eq_put fresh, Table.sum_insert fun _ _ => rfl, Option.map_none,
      Option.getD_none, add_zero]
  | some item =>
    obtain ⟨member, same⟩ := Table.find?_eq_some.mp found
    have present : dict.get? k = some item.2 := by
      rw [get?, found, Option.map_some]
    have isItem : (k, item.2) = item := Prod.ext same.symm rfl
    rw [present, Option.map_some, Option.getD_some, isItem]
    exact Table.sum_put member same fun _ _ _ => rfl

theorem getD_of_some {dict : Dict K V} {k : K} {v default : V} (found : dict.get? k = some v) :
    dict.getD k default = v := by
  rw [getD, found, Option.getD_some]

theorem getD_of_none {dict : Dict K V} {k : K} {default : V} (absent : dict.get? k = none) :
    dict.getD k default = default := by
  rw [getD, absent, Option.getD_none]

theorem getD_set (dict : Dict K V) (k k' : K) (v default : V) :
    (dict.set k v).getD k' default = if k' = k then v else dict.getD k' default := by
  unfold getD
  rw [get?_set]
  split
  · rfl
  · rfl

private theorem getD_foldl_items {items : List (K × V)} (distinct : (items.map Prod.fst).Nodup)
    (combine : W → V → W) (default : W) (start : Dict K W) (k : K) :
    (items.foldl (fun dict item => Dict.set dict item.1
        (combine (Dict.getD dict item.1 default) item.2)) start).getD k default =
      match (items.find? (fun item => item.1 = k)).map Prod.snd with
      | some v => combine (start.getD k default) v
      | none => start.getD k default := by
  induction items generalizing start with
  | nil => rfl
  | cons head tail ih =>
    rw [List.map_cons, List.nodup_cons] at distinct
    rw [List.foldl_cons, ih distinct.2, getD_set]
    by_cases isHead : head.1 = k
    · have later : tail.find? (fun item => item.1 = k) = none := by
        refine List.find?_eq_none.mpr fun item member same => ?_
        have sameKey : item.1 = k := by simpa using same
        exact distinct.1 (List.mem_map.mpr ⟨item, member, sameKey.trans isHead.symm⟩)
      rw [later]
      simp [isHead]
    · have skipped : (head :: tail).find? (fun item => item.1 = k) =
          tail.find? (fun item => item.1 = k) := by
        simp [isHead]
      have other : k ≠ head.1 := fun same => isHead same.symm
      rw [skipped, if_neg other]

/-- Folding a mapping into another combines every key of the first with what the second
has there and leaves the other keys alone. -/
theorem getD_foldl_combine (dict : Dict K V) (combine : W → V → W) (default : W)
    (start : Dict K W) (k : K) :
    (dict.rows.foldl (fun result item => Dict.set result item.1
        (combine (Dict.getD result item.1 default) item.2)) start).getD k default =
      match dict.get? k with
      | some v => combine (start.getD k default) v
      | none => start.getD k default :=
  getD_foldl_items dict.distinct combine default start k

theorem get?_mapItems (dict : Dict K V) (f : K → V → W) (k : K) :
    (dict.mapItems f).get? k = (dict.get? k).map (f k) := by
  cases found : dict.get? k with
  | none =>
    rw [get?_eq_none] at found
    refine get?_eq_none.mpr fun present => found ?_
    rw [keys, mapItems, List.map_map] at present
    exact present
  | some v =>
    exact get?_eq_some.mpr (mem_mapItems.mpr ⟨(k, v), get?_eq_some.mp found, rfl⟩)

theorem get?_mapValues (dict : Dict K V) (f : V → W) (k : K) :
    (dict.mapValues f).get? k = (dict.get? k).map f :=
  get?_mapItems dict _ k

theorem get?_ofKeys (names : List K) (f : K → V) (k : K) :
    (ofKeys names f).get? k = if k ∈ names then some (f k) else none := by
  split
  · next listed =>
    refine get?_eq_some.mpr (List.mem_map.mpr ⟨k, List.mem_dedup.mpr listed, rfl⟩)
  next absent =>
  refine get?_eq_none.mpr fun present => absent ?_
  rw [keys, ofKeys, List.map_map] at present
  obtain ⟨k', listed, rfl⟩ := List.mem_map.mp present
  exact List.mem_dedup.mp listed

private theorem mem_foldl_set {items : List (K × V)} {start : Dict K V} {item : K × V}
    (member : item ∈ items.foldl (fun dict item => Dict.set dict item.1 item.2) start) :
    item ∈ start ∨ item ∈ items := by
  induction items generalizing start with
  | nil => exact .inl member
  | cons head tail ih =>
    rcases ih member with old | new
    · rcases Table.mem_put.mp old with rfl | ⟨before, _⟩
      · exact .inr List.mem_cons_self
      · exact .inl before
    · exact .inr (List.mem_cons_of_mem _ new)

theorem mem_ofItems {items : List (K × V)} {item : K × V} (member : item ∈ ofItems items) :
    item ∈ items := by
  rcases mem_foldl_set member with start | listed
  · exact absurd start Table.not_mem_empty
  · exact listed

theorem exists_get?_ofItems {items : List (K × V)} {k : K} (listed : k ∈ items.map Prod.fst) :
    ∃ v, (ofItems items).get? k = some v := by
  have grows : ∀ (later : List (K × V)) (start : Dict K V),
      (∃ v, start.get? k = some v) ∨ k ∈ later.map Prod.fst →
        ∃ v, (later.foldl (fun dict item => Dict.set dict item.1 item.2) start).get? k = some v := by
    intro later
    induction later with
    | nil => exact fun _ known => known.resolve_right List.not_mem_nil
    | cons head tail ih =>
      intro start known
      refine ih _ ?_
      rw [get?_set]
      split
      · exact .inl ⟨_, rfl⟩
      next differs =>
      exact known.imp_right fun member => (List.mem_cons.mp member).resolve_left differs
  exact grows items _ (.inr listed)

private theorem get?_foldl_set {items : List (K × V)} (distinct : (items.map Prod.fst).Nodup)
    (start : Dict K V) (k : K) :
    (items.foldl (fun dict item => Dict.set dict item.1 item.2) start).get? k =
      ((items.find? (fun item => item.1 = k)).map Prod.snd).or (start.get? k) := by
  induction items generalizing start with
  | nil => rfl
  | cons head tail ih =>
    rw [List.map_cons, List.nodup_cons] at distinct
    rw [List.foldl_cons, ih distinct.2, get?_set]
    by_cases isHead : head.1 = k
    · have later : tail.find? (fun item => item.1 = k) = none := by
        refine List.find?_eq_none.mpr fun item member same => ?_
        have sameKey : item.1 = k := by simpa using same
        exact distinct.1 (List.mem_map.mpr ⟨item, member, sameKey.trans isHead.symm⟩)
      rw [later]
      simp [isHead]
    · have other : k ≠ head.1 := fun same => isHead same.symm
      rw [if_neg other, List.find?_cons_of_neg (by simpa using isHead)]

/-- A mapping updated with another has the other's items, and its own at the other keys. -/
theorem get?_foldl_rows (start other : Dict K V) (k : K) :
    (other.rows.foldl (fun dict item => Dict.set dict item.1 item.2) start).get? k =
      (other.get? k).or (start.get? k) :=
  get?_foldl_set other.distinct start k

theorem get?_ofItems {items : List (K × V)} (distinct : (items.map Prod.fst).Nodup)
    {item : K × V} (member : item ∈ items) : (ofItems items).get? item.1 = some item.2 := by
  have whole : get? (⟨items, distinct⟩ : Dict K V) item.1 = some item.2 :=
    get?_eq_some.mpr (show (item.1, item.2) ∈ items from member)
  have start : get? (Table.empty : Dict K V) item.1 = none := rfl
  rw [ofItems, get?_foldl_set distinct, start, Option.or_none]
  exact whole

theorem get?_ofItems_filter (dict : Dict K V) (k k' : K) :
    (ofItems (dict.rows.filter fun item => item.1 ≠ k)).get? k' =
      if k' = k then none else dict.get? k' := by
  split
  · next same =>
    rw [get?_eq_none, same]
    intro listed
    obtain ⟨item, member, isKey⟩ := List.mem_map.mp listed
    have other := (List.mem_filter.mp (mem_ofItems member)).2
    rw [isKey] at other
    simp at other
  · next differs =>
    cases found : dict.get? k' with
    | some v =>
      have member : (k', v) ∈ dict.rows.filter fun item => item.1 ≠ k :=
        List.mem_filter.mpr ⟨get?_eq_some.mp found, by simpa using differs⟩
      have distinct : ((dict.rows.filter fun item => item.1 ≠ k).map Prod.fst).Nodup :=
        dict.distinct.sublist (List.filter_sublist.map _)
      exact get?_ofItems distinct member
    | none =>
      rw [get?_eq_none] at found ⊢
      intro listed
      obtain ⟨item, member, isKey⟩ := List.mem_map.mp listed
      exact found (List.mem_map.mpr ⟨item, (List.mem_filter.mp (mem_ofItems member)).1, isKey⟩)

/-- A new key goes behind the others. -/
theorem rows_set_of_fresh {dict : Dict K V} {k : K} (fresh : k ∉ dict.keys) (v : V) :
    (dict.set k v).rows = dict.rows ++ [(k, v)] := by
  have absent : dict.find? (key (k, v)) = none :=
    Option.map_eq_none_iff.mp (get?_eq_none.mpr fresh)
  rw [set, ← Table.insert_eq_put absent]
  rfl

theorem length_set_of_mem {dict : Dict K V} {k : K} (taken : k ∈ dict.keys) (v : V) :
    (dict.set k v).rows.length = dict.rows.length := by
  have present : dict.find? (key (k, v)) ≠ none := fun absent =>
    get?_eq_none.mp (Option.map_eq_none_iff.mpr absent) taken
  rw [set, Table.put, dif_neg present]
  exact List.length_map _

theorem length_set_le (dict : Dict K V) (k : K) (v : V) :
    (dict.set k v).rows.length ≤ dict.rows.length + 1 := by
  by_cases taken : k ∈ dict.keys
  · rw [length_set_of_mem taken]
    exact Nat.le_succ _
  · rw [rows_set_of_fresh taken, List.length_append]
    rfl

theorem set_nonempty (dict : Dict K V) (k : K) (v : V) : (dict.set k v).rows ≠ [] := by
  intro empty
  have member : (k, v) ∈ dict.set k v := Table.mem_put.mpr (.inl rfl)
  rw [← Table.mem_rows, empty] at member
  cases member

theorem ofItems_nonempty {items : List (K × V)} (listed : items ≠ []) :
    (ofItems items).rows ≠ [] := by
  have grows : ∀ (later : List (K × V)) (start : Dict K V), start.rows ≠ [] →
      (later.foldl (fun dict item => Dict.set dict item.1 item.2) start).rows ≠ [] := by
    intro later
    induction later with
    | nil => exact fun _ nonempty => nonempty
    | cons head tail ih => exact fun start _ => ih _ (set_nonempty start head.1 head.2)
  cases items with
  | nil => exact absurd rfl listed
  | cons head tail => exact grows tail _ (set_nonempty Table.empty head.1 head.2)

/-- Looking every key up gives the items. -/
theorem filterMap_keys (dict : Dict K V) :
    dict.keys.filterMap (fun k => (dict.get? k).map fun v => (k, v)) = dict.rows := by
  rw [keys, List.filterMap_map]
  refine (List.filterMap_congr fun item member => ?_).trans List.filterMap_some
  rw [Function.comp_apply, get?_eq_some.mpr (Table.mem_rows.mp member)]
  rfl

theorem filterMap_order_perm {dict : Dict K V} {order : List K} (all : order.Perm dict.keys) :
    (order.filterMap fun k => (dict.get? k).map fun v => (k, v)).Perm dict.rows :=
  (all.filterMap _).trans (.of_eq dict.filterMap_keys)

def reorder (dict : Dict K V) (order : List K) : Dict K V :=
  if all : order.Perm dict.keys then
    { rows := order.filterMap fun k => (dict.get? k).map fun v => (k, v)
      distinct := ((filterMap_order_perm all).map Prod.fst).nodup_iff.mpr dict.distinct }
  else
    dict

theorem reorder_perm (dict : Dict K V) (order : List K) :
    (dict.reorder order).rows.Perm dict.rows := by
  unfold reorder
  split
  · next all => exact filterMap_order_perm all
  · exact .refl _

theorem sum_reorder {M : Type*} [AddCommMonoid M] (dict : Dict K V) (order : List K)
    (f : K × V → M) : (dict.reorder order).sum f = dict.sum f :=
  ((reorder_perm dict order).map f).sum_eq

end Dict

end ComputeMarket
