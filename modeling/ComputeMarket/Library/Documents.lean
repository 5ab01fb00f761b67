import ComputeMarket.Library.Codepoints

/-!
# Documents

The values of a dynamically typed program over texts of code points: null, booleans, integers,
floating-point numbers (of a type `φ`, whatever it is), texts, lists, and mappings with their
members in insertion order.
-/

namespace ComputeMarket.Texts

inductive Document (φ : Type)
  | null
  | bool (b : Bool)
  | int (n : ℤ)
  | float (x : φ)
  | str (text : Text)
  | list (items : List (Document φ))
  | obj (members : List (Text × Document φ))

def sortMembers {α : Type} (members : List (Text × α)) : List (Text × α) :=
  members.insertionSort fun first second => first.1 ≤ second.1

theorem mem_sortMembers {α : Type} {members : List (Text × α)} {member : Text × α} :
    member ∈ sortMembers members ↔ member ∈ members := List.mem_insertionSort _

theorem nodup_keys_sortMembers {α : Type} {members : List (Text × α)}
    (distinct : (members.map Prod.fst).Nodup) : ((sortMembers members).map Prod.fst).Nodup :=
  ((List.perm_insertionSort _ _).map Prod.fst).nodup_iff.mpr distinct

theorem members_ext {α : Type} {first second : List (Text × α)}
    (distinct : (first.map Prod.fst).Nodup) (distinct' : (second.map Prod.fst).Nodup)
    (sorted : first.Pairwise fun member other => member.1 ≤ other.1)
    (sorted' : second.Pairwise fun member other => member.1 ≤ other.1)
    (same : ∀ member, member ∈ first ↔ member ∈ second) : first = second := by
  have perm : first.Perm second :=
    (List.perm_ext_iff_of_nodup distinct.of_map distinct'.of_map).mpr same
  refine perm.eq_of_pairwise ?_ sorted sorted'
  intro member other inside inside' le ge
  exact List.inj_on_of_nodup_map distinct' ((same member).mp inside) inside' (le_antisymm le ge)

theorem sortMembers_eq {α : Type} {first second : List (Text × α)}
    (distinct : (first.map Prod.fst).Nodup) (distinct' : (second.map Prod.fst).Nodup)
    (same : ∀ member, member ∈ first ↔ member ∈ second) :
    sortMembers first = sortMembers second := by
  refine members_ext (nodup_keys_sortMembers distinct) (nodup_keys_sortMembers distinct')
    (List.pairwise_insertionSort _ _) (List.pairwise_insertionSort _ _) fun member => ?_
  rw [mem_sortMembers, mem_sortMembers, same]

theorem filter_sortMembers {α : Type} (members : List (Text × α)) (key : Text) :
    (sortMembers members).filter (·.1 = key) = members.filter (·.1 = key) := by
  have within : (members.filter (·.1 = key)).Sublist (sortMembers members) := by
    refine List.sublist_insertionSort ?_ List.filter_sublist
    refine List.pairwise_of_forall_mem_list fun member inside other inside' => ?_
    have own := of_decide_eq_true (List.mem_filter.mp inside).2
    have own' := of_decide_eq_true (List.mem_filter.mp inside').2
    exact (own.trans own'.symm).le
  have filtered := within.filter fun member => decide (member.1 = key)
  rw [List.filter_filter] at filtered
  simp only [Bool.and_self] at filtered
  exact (filtered.eq_of_length ((List.perm_insertionSort _ _).filter _).length_eq.symm).symm

/-- The order of members does not matter to their sorting where those of one key are one. -/
theorem sortMembers_perm {α : Type} {first second : List (Text × α)} (perm : first.Perm second)
    (alike : ∀ member ∈ first, ∀ other ∈ first, member.1 = other.1 → member = other) :
    sortMembers first = sortMembers second := by
  have sorted := List.perm_insertionSort (fun member other : Text × α => member.1 ≤ other.1)
  refine ((sorted first).trans (perm.trans (sorted second).symm)).eq_of_pairwise ?_
    (List.pairwise_insertionSort _ _) (List.pairwise_insertionSort _ _)
  intro member other inside inside' le ge
  exact alike member (mem_sortMembers.mp inside) other
    (perm.mem_iff.mpr (mem_sortMembers.mp inside')) (le_antisymm le ge)

theorem map_sortMembers {α β : Type} (f : α → β) (members : List (Text × α)) :
    (sortMembers members).map (Prod.map id f) = sortMembers (members.map (Prod.map id f)) :=
  List.map_insertionSort _ _ _ _ fun _ _ _ _ => Iff.rfl

/-- Where one key is put after the other, and no key twice with different values, what is found
under a key is what was put. -/
theorem get_foldl_put {S K V : Type} [DecidableEq K] {put : S → K → V → S} {get : S → K → Option V}
    (get_put : ∀ filled key value other,
      get (put filled key value) other = if other = key then some value else get filled other)
    {start : S} (empty : ∀ key, get start key = none) {items : List (K × V)}
    (single : ∀ key value value', (key, value) ∈ items → (key, value') ∈ items → value = value')
    {key : K} {value : V} :
    get (items.foldl (fun filled item => put filled item.1 item.2) start) key = some value ↔
      (key, value) ∈ items := by
  induction items using List.reverseRecOn with
  | nil =>
    rw [List.foldl_nil, empty]
    exact iff_of_false (Option.some_ne_none value).symm List.not_mem_nil
  | append_singleton items item ih =>
    have before := ih fun key value value' inside inside' =>
      single key value value' (List.mem_append_left _ inside) (List.mem_append_left _ inside')
    rw [List.foldl_append, List.foldl_cons, List.foldl_nil, get_put, List.mem_append,
      List.mem_singleton]
    split
    next here =>
      subst here
      constructor
      · intro same
        cases same
        exact .inr rfl
      · rintro (inside | same)
        · rw [single item.1 value item.2 (List.mem_append_left _ inside)
            (List.mem_append_right _ List.mem_cons_self)]
        · rw [← same]
    next other =>
      rw [before]
      exact ⟨.inl, fun either => either.resolve_right fun same => other (congrArg Prod.fst same)⟩

/-! ## Groups -/

section

variable {α β : Type}

/-- Put an item into the group of its key, which begins with its first item. -/
def upsert (start : α → β) (update : β → α → β) : List (Text × β) → Text × α → List (Text × β)
  | [], item => [(item.1, update (start item.2) item.2)]
  | group :: rest, item =>
    if group.1 = item.1 then (group.1, update group.2 item.2) :: rest
    else group :: upsert start update rest item

def grouped (start : α → β) (update : β → α → β) (items : List (Text × α)) : List (Text × β) :=
  items.foldl (upsert start update) []

def valuesOf (items : List (Text × α)) (key : Text) : List α :=
  (items.filter (·.1 = key)).map Prod.snd

variable {start : α → β} {update : β → α → β} {items : List (Text × α)}

theorem lookup_cons_ite (key name : Text) (held : β) (rest : List (Text × β)) :
    ((name, held) :: rest).lookup key = if key = name then some held else rest.lookup key := by
  rw [List.lookup_cons]
  by_cases here : key = name
  · rw [beq_iff_eq.mpr here, if_pos here]
  · rw [beq_eq_false_iff_ne.mpr here, if_neg here]

theorem lookup_upsert (groups : List (Text × β)) (item : Text × α) (key : Text) :
    (upsert start update groups item).lookup key =
      if key = item.1 then some (update ((groups.lookup key).getD (start item.2)) item.2)
      else groups.lookup key := by
  induction groups with
  | nil => exact lookup_cons_ite key item.1 _ []
  | cons group rest ih =>
    obtain ⟨name, held⟩ := group
    unfold upsert
    by_cases own : name = item.1
    · subst own
      rw [if_pos rfl, lookup_cons_ite, lookup_cons_ite]
      split <;> rfl
    · rw [if_neg own, lookup_cons_ite, lookup_cons_ite, ih]
      by_cases here : key = name
      · subst here
        rw [if_pos rfl, if_neg own, if_pos rfl]
      · rw [if_neg here, if_neg here]

theorem keys_upsert (groups : List (Text × β)) (item : Text × α) :
    (upsert start update groups item).map Prod.fst =
      if item.1 ∈ groups.map Prod.fst then groups.map Prod.fst
      else groups.map Prod.fst ++ [item.1] := by
  induction groups with
  | nil => rfl
  | cons group rest ih =>
    unfold upsert
    by_cases own : group.1 = item.1
    · simp [own]
    · rw [if_neg own, List.map_cons, ih]
      simp only [List.map_cons, List.mem_cons, Ne.symm own, false_or]
      split <;> rfl

theorem nodup_keys_grouped : ((grouped start update items).map Prod.fst).Nodup := by
  induction items using List.reverseRecOn with
  | nil => exact List.nodup_nil
  | append_singleton items item ih =>
    rw [grouped, List.foldl_append, List.foldl_cons, List.foldl_nil, keys_upsert]
    split
    · exact ih
    next fresh => exact ih.append (List.nodup_singleton _) (List.disjoint_singleton.mpr fresh)

theorem lookup_grouped (key : Text) :
    (grouped start update items).lookup key =
      (valuesOf items key).head?.map fun first => (valuesOf items key).foldl update (start first) := by
  induction items using List.reverseRecOn with
  | nil => rfl
  | append_singleton items item ih =>
    rw [grouped, List.foldl_append, List.foldl_cons, List.foldl_nil, lookup_upsert, ← grouped, ih]
    by_cases here : key = item.1
    · subst here
      have behind : valuesOf (items ++ [item]) item.1 = valuesOf items item.1 ++ [item.2] := by
        simp [valuesOf]
      rw [if_pos rfl, behind]
      cases valuesOf items item.1 <;> simp
    · have same : valuesOf (items ++ [item]) key = valuesOf items key := by
        simp [valuesOf, Ne.symm here]
      rw [if_neg here, same]

/-- **What a group is made of**: the items behind its key, in order. -/
theorem mem_grouped {group : Text × β} :
    group ∈ grouped start update items ↔
      ∃ first, (valuesOf items group.1).head? = some first ∧
        (valuesOf items group.1).foldl update (start first) = group.2 := by
  have found : group ∈ grouped start update items ↔
      (grouped start update items).lookup group.1 = some group.2 := by
    rw [List.lookup_eq_some_iff]
    constructor
    · intro inside
      obtain ⟨front, behind, cut⟩ := List.append_of_mem inside
      refine ⟨front, behind, cut, fun other earlier => ?_⟩
      have distinct := @nodup_keys_grouped _ _ start update items
      rw [cut, List.map_append, List.map_cons] at distinct
      have apart := List.disjoint_of_nodup_append distinct
        (List.mem_map_of_mem (f := Prod.fst) earlier)
      rw [bne_iff_ne]
      rintro same
      exact apart (same ▸ List.mem_cons_self)
    · rintro ⟨front, behind, cut, -⟩
      rw [cut]
      exact List.mem_append_right _ List.mem_cons_self
  rw [found, lookup_grouped, Option.map_eq_some_iff]

theorem sum_grouped {size : β → ℕ} (fresh : ∀ item, size (start item) = 0)
    (grows : ∀ held item, size (update held item) = size held + 1) :
    ((grouped start update items).map (size ·.2)).sum = items.length := by
  induction items using List.reverseRecOn with
  | nil => rfl
  | append_singleton items item ih =>
    have one : ∀ groups : List (Text × β),
        ((upsert start update groups item).map (size ·.2)).sum = (groups.map (size ·.2)).sum + 1 := by
      intro groups
      induction groups with
      | nil => simp [upsert, grows, fresh]
      | cons group rest rests =>
        unfold upsert
        split
        · simp only [List.map_cons, List.sum_cons, grows]
          omega
        · rw [List.map_cons, List.sum_cons, rests, List.map_cons, List.sum_cons, Nat.add_assoc]
    rw [grouped, List.foldl_append, List.foldl_cons, List.foldl_nil, one, ← grouped, ih,
      List.length_append, List.length_singleton]

end

end ComputeMarket.Texts
