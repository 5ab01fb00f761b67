import Mathlib.Algebra.Ring.Nat
import Mathlib.Data.List.Basic
import Mathlib.Data.Set.Function

/-!
# Words that say where they end

A code is self-delimiting on a set of words when a text that begins with the code of one of
them tells the word and where its code ends. A sequence of such codes, written one behind the
other, tells the sequence. Three ways to come by one: codes of one width
(`SelfDelimitingOn.of_width`), codes closed by a mark that none of them contains
(`SelfDelimitingOn.of_mark`), and a content behind its own length
(`SelfDelimitingOn.counted`). A code that a mark behind it ends (`EndedBy`) tells itself in a
sequence with such marks between its words and another at its end (`EndedBy.closed`).
-/

namespace ComputeMarket

variable {α β γ : Type*}

/-! ## Self-delimiting codes -/

/-- What begins with the code of a word begins with that of no other word, and goes on in one
way. -/
def SelfDelimitingOn (words : Set α) (code : α → List β) : Prop :=
  ∀ ⦃first⦄, first ∈ words → ∀ ⦃second⦄, second ∈ words → ∀ ⦃rest rest'⦄,
    code first ++ rest = code second ++ rest' → first = second ∧ rest = rest'

namespace SelfDelimitingOn

variable {words : Set α} {code : α → List β}

theorem injOn (delimits : SelfDelimitingOn words code) : Set.InjOn code words := by
  intro first valid second valid' same
  exact (delimits valid valid' (congrArg (· ++ []) same)).1

theorem of_width {width : ℕ} (wide : ∀ word ∈ words, (code word).length = width)
    (apart : Set.InjOn code words) : SelfDelimitingOn words code := by
  intro first valid second valid' rest rest' same
  have lengths : (code first).length = (code second).length :=
    (wide first valid).trans (wide second valid').symm
  obtain ⟨codes, rests⟩ := List.append_inj same lengths
  exact ⟨apart valid valid' codes, rests⟩

theorem eq_of_mark {mark : β} {first second rest rest' : List β} (clear : mark ∉ first)
    (clear' : mark ∉ second) (same : first ++ mark :: rest = second ++ mark :: rest') :
    first = second ∧ rest = rest' := by
  induction first generalizing second with
  | nil =>
    cases second with
    | nil => exact ⟨rfl, (List.cons.inj same).2⟩
    | cons symbol second => exact absurd ((List.cons.inj same).1 ▸ List.mem_cons_self) clear'
  | cons symbol first ih =>
    cases second with
    | nil => exact absurd ((List.cons.inj same).1 ▸ List.mem_cons_self) clear
    | cons symbol' second =>
      obtain ⟨rfl, tails⟩ := List.cons.inj same
      obtain ⟨rfl, rests⟩ := ih (fun inside => clear (List.mem_cons_of_mem _ inside))
        (fun inside => clear' (List.mem_cons_of_mem _ inside)) tails
      exact ⟨rfl, rests⟩

theorem of_mark {mark : β} (clear : ∀ word ∈ words, mark ∉ code word)
    (apart : Set.InjOn code words) : SelfDelimitingOn words (fun word => code word ++ [mark]) := by
  intro first valid second valid' rest rest' same
  simp only [List.append_assoc, List.singleton_append] at same
  obtain ⟨codes, rests⟩ := eq_of_mark (clear first valid) (clear second valid') same
  exact ⟨apart valid valid' codes, rests⟩

theorem counted {lengths : Set ℕ} {size : ℕ → List β} (delimits : SelfDelimitingOn lengths size) :
    SelfDelimitingOn {content : List β | content.length ∈ lengths}
      (fun content => size content.length ++ content) := by
  intro first valid second valid' rest rest' same
  simp only [List.append_assoc] at same
  obtain ⟨counts, contents⟩ := delimits valid valid' same
  exact List.append_inj contents counts

theorem comp (delimits : SelfDelimitingOn words code) (read : γ → α) {domain : Set γ}
    (valid : Set.MapsTo read domain words) (apart : Set.InjOn read domain) :
    SelfDelimitingOn domain (fun word => code (read word)) := by
  intro first inside second inside' rest rest' same
  obtain ⟨words, rests⟩ := delimits (valid inside) (valid inside') same
  exact ⟨apart inside inside' words, rests⟩

theorem append_const (delimits : SelfDelimitingOn words code) (closing : List β) :
    SelfDelimitingOn words (fun word => code word ++ closing) := by
  intro first valid second valid' rest rest' same
  simp only [List.append_assoc] at same
  obtain ⟨words, rests⟩ := delimits valid valid' same
  exact ⟨words, List.append_cancel_left rests⟩

theorem flatMap_inj (delimits : SelfDelimitingOn words code)
    (visible : ∀ word ∈ words, code word ≠ []) {first second : List α}
    (valid : ∀ word ∈ first, word ∈ words) (valid' : ∀ word ∈ second, word ∈ words)
    (same : first.flatMap code = second.flatMap code) : first = second := by
  induction first generalizing second with
  | nil =>
    cases second with
    | nil => rfl
    | cons word rest =>
      rw [List.flatMap_nil, List.flatMap_cons, eq_comm, List.append_eq_nil_iff] at same
      exact absurd same.1 (visible word (valid' word List.mem_cons_self))
  | cons word rest ih =>
    cases second with
    | nil =>
      rw [List.flatMap_nil, List.flatMap_cons, List.append_eq_nil_iff] at same
      exact absurd same.1 (visible word (valid word List.mem_cons_self))
    | cons word' rest' =>
      rw [List.flatMap_cons, List.flatMap_cons] at same
      obtain ⟨rfl, rests⟩ := delimits (valid word List.mem_cons_self)
        (valid' word' List.mem_cons_self) same
      rw [ih (fun other inside => valid other (List.mem_cons_of_mem _ inside))
        (fun other inside => valid' other (List.mem_cons_of_mem _ inside)) rests]

/-- The codes of a sequence with a separator between them are its codes with the separator
behind each, but for the last separator. -/
theorem intercalate_append (separator : List β) (code : α → List β) (word : α)
    (sequence : List α) :
    separator.intercalate ((word :: sequence).map code) ++ separator =
      (word :: sequence).flatMap (fun word => code word ++ separator) := by
  induction sequence generalizing word with
  | nil => simp [List.intercalate]
  | cons next rest ih =>
    have behind := ih next
    simp only [List.map_cons, List.intercalate_cons_cons, List.append_assoc] at behind ⊢
    rw [behind]
    simp only [List.flatMap_cons, List.append_assoc]

/-- A sequence of words is told by their codes with a separator between them. -/
theorem intercalate_inj (delimits : SelfDelimitingOn words code)
    (visible : ∀ word ∈ words, code word ≠ []) (separator : List β) {first second : List α}
    (valid : ∀ word ∈ first, word ∈ words) (valid' : ∀ word ∈ second, word ∈ words)
    (same : separator.intercalate (first.map code) = separator.intercalate (second.map code)) :
    first = second := by
  -- Something is written for any word.
  have written : ∀ {word sequence}, word ∈ words →
      separator.intercalate ((word :: sequence).map code) ≠ [] := by
    intro word sequence inside none
    have shown := visible word inside
    cases sequence with
    | nil => exact shown (by simpa [List.intercalate] using none)
    | cons next rest =>
      rw [List.map_cons, List.map_cons, List.intercalate_cons_cons] at none
      exact shown (List.append_eq_nil_iff.mp (List.append_eq_nil_iff.mp none).1).1
  cases first with
  | nil =>
    cases second with
    | nil => rfl
    | cons word rest => exact absurd same.symm (written (valid' word List.mem_cons_self))
  | cons word rest =>
    cases second with
    | nil => exact absurd same (written (valid word List.mem_cons_self))
    | cons word' rest' =>
      have closed := congrArg (· ++ separator) same
      simp only [intercalate_append separator code] at closed
      exact (delimits.append_const separator).flatMap_inj
        (fun word inside empty => visible word inside (List.append_eq_nil_iff.mp empty).1)
        valid valid' closed

end SelfDelimitingOn

/-! ## Codes that a mark ends -/

def EndedBy (marks : Set β) (words : Set α) (code : α → List β) : Prop :=
  ∀ ⦃first⦄, first ∈ words → ∀ ⦃second⦄, second ∈ words → ∀ ⦃mark⦄, mark ∈ marks →
    ∀ ⦃mark'⦄, mark' ∈ marks → ∀ ⦃rest rest'⦄,
      code first ++ mark :: rest = code second ++ mark' :: rest' →
        first = second ∧ mark = mark' ∧ rest = rest'

theorem SelfDelimitingOn.endedBy {words : Set α} {code : α → List β}
    (delimits : SelfDelimitingOn words code) (marks : Set β) : EndedBy marks words code := by
  intro first valid second valid' mark _ mark' _ rest rest' same
  obtain ⟨words, rests⟩ := delimits valid valid' same
  exact ⟨words, List.cons.inj rests⟩

namespace EndedBy

variable {marks : Set β} {words : Set α} {code : α → List β}

theorem of_clear (clear : ∀ word ∈ words, ∀ symbol ∈ code word, symbol ∉ marks)
    (apart : Set.InjOn code words) : EndedBy marks words code := by
  have cut : ∀ {first second : List β} {mark mark' : β} {rest rest' : List β},
      (∀ symbol ∈ first, symbol ∉ marks) → (∀ symbol ∈ second, symbol ∉ marks) → mark ∈ marks →
        mark' ∈ marks → first ++ mark :: rest = second ++ mark' :: rest' →
          first = second ∧ mark = mark' ∧ rest = rest' := by
    intro first
    induction first with
    | nil =>
      rintro (_ | ⟨symbol, second⟩) mark mark' rest rest' - clear' isMark - same
      · exact ⟨rfl, List.cons.inj same⟩
      · exact absurd ((List.cons.inj same).1 ▸ isMark) (clear' symbol List.mem_cons_self)
    | cons symbol first ih =>
      rintro (_ | ⟨symbol', second⟩) mark mark' rest rest' clear clear' isMark isMark' same
      · exact absurd ((List.cons.inj same).1 ▸ isMark') (clear symbol List.mem_cons_self)
      · obtain ⟨rfl, tails⟩ := List.cons.inj same
        obtain ⟨rfl, ends⟩ := ih (fun other inside => clear other (List.mem_cons_of_mem _ inside))
          (fun other inside => clear' other (List.mem_cons_of_mem _ inside)) isMark isMark' tails
        exact ⟨rfl, ends⟩
  intro first valid second valid' mark isMark mark' isMark' rest rest' same
  obtain ⟨codes, ends⟩ := cut (clear first valid) (clear second valid') isMark isMark' same
  exact ⟨apart valid valid' codes, ends⟩

theorem after (ended : EndedBy marks words code) {fronts : Set γ} {front : γ → List β}
    (delimits : SelfDelimitingOn fronts front) :
    EndedBy marks {pair : γ × α | pair.1 ∈ fronts ∧ pair.2 ∈ words}
      (fun pair => front pair.1 ++ code pair.2) := by
  intro first valid second valid' mark isMark mark' isMark' rest rest' same
  simp only [List.append_assoc] at same
  obtain ⟨fronts, behind⟩ := delimits valid.1 valid'.1 same
  obtain ⟨words, ends⟩ := ended valid.2 valid'.2 isMark isMark' behind
  exact ⟨Prod.ext fronts words, ends⟩

theorem closed (ended : EndedBy marks words code) (separator closing : β)
    (separates : separator ∈ marks) (closes : closing ∈ marks) (differ : separator ≠ closing)
    (starts : ∀ word ∈ words, ∀ rest, (code word ++ rest).head? ≠ some closing) :
    SelfDelimitingOn {sequence : List α | ∀ word ∈ sequence, word ∈ words}
      (fun sequence => [separator].intercalate (sequence.map code) ++ [closing]) := by
  have open' : ∀ (word : α) (sequence : List α) (rest : List β), ∃ mark ∈ marks, ∃ behind,
      [separator].intercalate ((word :: sequence).map code) ++ [closing] ++ rest =
        code word ++ mark :: behind ∧
      (sequence = [] ∧ mark = closing ∧ behind = rest ∨
        sequence ≠ [] ∧ mark = separator ∧
          behind = [separator].intercalate (sequence.map code) ++ [closing] ++ rest) := by
    intro word sequence rest
    cases sequence with
    | nil => exact ⟨closing, closes, rest, by simp [List.intercalate], .inl ⟨rfl, rfl, rfl⟩⟩
    | cons next others =>
      refine ⟨separator, separates, _, ?_, .inr ⟨List.cons_ne_nil _ _, rfl, rfl⟩⟩
      simp only [List.map_cons, List.intercalate_cons_cons, List.append_assoc,
        List.cons_append, List.nil_append]
  intro first valid second valid' rest rest' same
  dsimp only at same
  induction first generalizing second with
  | nil =>
    cases second with
    | nil => exact ⟨rfl, List.append_cancel_left same⟩
    | cons word sequence =>
      obtain ⟨mark, -, behind, cut, -⟩ := open' word sequence rest'
      rw [cut] at same
      exact absurd (congrArg List.head? same).symm
        (starts word (valid' word List.mem_cons_self) _)
  | cons word sequence ih =>
    obtain ⟨mark, isMark, behind, cut, goes⟩ := open' word sequence rest
    cases second with
    | nil =>
      rw [cut] at same
      exact absurd (congrArg List.head? same)
        (starts word (valid word List.mem_cons_self) _)
    | cons word' sequence' =>
      obtain ⟨mark', isMark', behind', cut', goes'⟩ := open' word' sequence' rest'
      rw [cut, cut'] at same
      obtain ⟨rfl, marks, behinds⟩ := ended (valid word List.mem_cons_self)
        (valid' word' List.mem_cons_self) isMark isMark' same
      rcases goes with ⟨rfl, rfl, rfl⟩ | ⟨-, rfl, rfl⟩
      · rcases goes' with ⟨rfl, -, rfl⟩ | ⟨-, rfl, -⟩
        · exact ⟨rfl, behinds⟩
        · exact absurd marks.symm differ
      · rcases goes' with ⟨-, rfl, -⟩ | ⟨-, -, rfl⟩
        · exact absurd marks differ
        · obtain ⟨rfl, rests⟩ := ih (fun other inside => valid other (List.mem_cons_of_mem _ inside))
            (fun other inside => valid' other (List.mem_cons_of_mem _ inside)) behinds
          exact ⟨rfl, rests⟩

end EndedBy

def bigEndian : ℕ → ℕ → List UInt8
  | 0, _ => []
  | width + 1, number => bigEndian width (number / 256) ++ [UInt8.ofNat (number % 256)]

@[simp] theorem length_bigEndian (width number : ℕ) : (bigEndian width number).length = width := by
  induction width generalizing number with
  | zero => rfl
  | succ width ih => rw [bigEndian, List.length_append, ih, List.length_singleton]

theorem bigEndian_injOn (width : ℕ) : Set.InjOn (bigEndian width) {number : ℕ | number < 256 ^ width} := by
  induction width with
  | zero =>
    intro first small second small' _
    exact (Nat.lt_one_iff.mp small).trans (Nat.lt_one_iff.mp small').symm
  | succ width ih =>
    intro first small second small' same
    change first < 256 ^ (width + 1) at small
    change second < 256 ^ (width + 1) at small'
    rw [pow_succ'] at small small'
    obtain ⟨highs, lows⟩ := List.append_inj' same rfl
    have high : first / 256 = second / 256 :=
      ih (Nat.div_lt_of_lt_mul small) (Nat.div_lt_of_lt_mul small') highs
    have low : first % 256 = second % 256 := by
      have bytes := congrArg UInt8.toNat (List.cons.inj lows).1
      simpa using bytes
    rw [← Nat.div_add_mod first 256, ← Nat.div_add_mod second 256, high, low]

/-- Numbers below `256 ^ width` in so many bytes each. -/
theorem bigEndian_delimits (width : ℕ) :
    SelfDelimitingOn {number : ℕ | number < 256 ^ width} (bigEndian width) :=
  .of_width (fun number _ => length_bigEndian width number) (bigEndian_injOn width)

theorem toDigits_injective : Function.Injective (Nat.toDigits 10) := by
  intro first second same
  rw [← Nat.ofDigitChars_ten_toDigits (n := first), same, Nat.ofDigitChars_ten_toDigits]

theorem toDigits_delimits (mark : Char) (clear : mark.isDigit = false) :
    SelfDelimitingOn Set.univ (fun number => Nat.toDigits 10 number ++ [mark]) := by
  refine .of_mark (fun number _ inside => ?_) toDigits_injective.injOn
  rw [Nat.isDigit_of_mem_toDigits (by decide) (by decide) inside] at clear
  cases clear

end ComputeMarket
