import Mathlib.Data.List.DropRight

/-!
# Authorization headers

`parse_bearer` and `key_id_from_secret` as the three middlewares of
`domains/apicredits/middleware` write them, each with its own language's white space and its
own way to split a text. A header is a list of characters.

`Plain` describes the headers all three read alike: the blanks around and between its words
are white space in all three languages, the words' ends are white space in none, and behind a
bearer scheme there is one word. Behind the second word of a header the TypeScript gate reads
nothing.
-/

namespace ComputeMarket.Middleware

def sharedSpace (c : Char) : Bool :=
  c ∈ ['\t', '\n', '\x0b', '\x0c', '\r', ' ', '\u00a0', '\u1680', '\u2028', '\u2029', '\u202f',
    '\u205f', '\u3000'] || ('\u2000' ≤ c && c ≤ '\u200a')

/-- `str.isspace`: also the four separators of the control characters, and next line. -/
def pythonSpace (c : Char) : Bool :=
  sharedSpace c || ('\x1c' ≤ c && c ≤ '\x1f') || c = '\u0085'

/-- `\s`: also the byte order mark. -/
def typescriptSpace (c : Char) : Bool :=
  sharedSpace c || c = '\ufeff'

/-- `char::is_whitespace`: also next line. -/
def rustSpace (c : Char) : Bool :=
  sharedSpace c || c = '\u0085'

def someSpace (c : Char) : Bool :=
  pythonSpace c || typescriptSpace c || rustSpace c

def strip (space : Char → Bool) (text : List Char) : List Char :=
  (text.dropWhile space).rdropWhile space

/-- `x or None`, for a text. -/
def nonempty (text : List Char) : Option (List Char) :=
  if text = [] then none else some text

/-- The scheme is `bearer` in any case. Only ASCII letters become the letters of the word. -/
def isBearer (scheme : List Char) : Bool :=
  scheme.map Char.toLower = ['b', 'e', 'a', 'r', 'e', 'r']

/-- `str.split(None, 1)` of a text without white space at its ends: a word, and what stands
behind the white space after it. -/
def splitFirst (space : Char → Bool) (text : List Char) : List (List Char) :=
  match text with
  | [] => []
  | _ =>
    let word := text.takeWhile fun c => !space c
    match (text.dropWhile fun c => !space c).dropWhile space with
    | [] => [word]
    | rest => [word, rest]

/-- The first two pieces of `split(/\s+/)`. -/
def splitTwo (space : Char → Bool) (text : List Char) : List (List Char) :=
  let word := text.takeWhile fun c => !space c
  match text.dropWhile fun c => !space c with
  | [] => [word]
  | rest => [word, (rest.dropWhile space).takeWhile fun c => !space c]

/-- `str::split_once`: what stands before the first white space character, and behind it. -/
def splitOnce (space : Char → Bool) (text : List Char) : Option (List Char × List Char) :=
  match text.dropWhile fun c => !space c with
  | [] => none
  | _ :: rest => some (text.takeWhile fun c => !space c, rest)

/-- `gate.parse_bearer` of the Python gate. -/
def Python.parseBearer (authorization : Option (List Char)) : Option (List Char) :=
  match authorization with
  | none => none
  | some header =>
    if header = [] then none
    else
      match splitFirst pythonSpace (strip pythonSpace header) with
      | [scheme, secret] => if isBearer scheme then nonempty (strip pythonSpace secret) else none
      | [word] => nonempty (strip pythonSpace word)
      | _ => none

/-- `parseBearer` of the TypeScript gate. -/
def TypeScript.parseBearer (authorization : Option (List Char)) : Option (List Char) :=
  match authorization with
  | none => none
  | some header =>
    if header = [] then none
    else
      match splitTwo typescriptSpace (strip typescriptSpace header) with
      | [scheme, secret] =>
        if isBearer scheme then nonempty (strip typescriptSpace secret) else none
      | [word] => nonempty (strip typescriptSpace word)
      | _ => none

/-- `parse_bearer` of the Rust gate. -/
def Rust.parseBearer (authorization : Option (List Char)) : Option (List Char) :=
  match authorization with
  | none => none
  | some header =>
    let trimmed := strip rustSpace header
    if trimmed = [] then none
    else
      match splitOnce rustSpace trimmed with
      | some (scheme, rest) => if isBearer scheme then nonempty (strip rustSpace rest) else none
      | none => some trimmed

/-- `key_id_from_secret`, in every one of the gates: what stands before the first point. -/
def keyIdFromSecret (secret : List Char) : Option (List Char) :=
  nonempty (secret.takeWhile (· ≠ '.'))

/-! ## What all three read alike -/

variable {word : List Char}

/-- A word that no language splits: it is not empty and no character of it is white space. -/
def Word (text : List Char) : Prop := text ≠ [] ∧ ∀ c ∈ text, someSpace c = false

def Trimmed (text : List Char) : Prop :=
  (∃ c rest, text = c :: rest ∧ someSpace c = false) ∧
    ∃ front c, text = front ++ [c] ∧ someSpace c = false

def Blank (text : List Char) : Prop := ∀ c ∈ text, sharedSpace c = true

inductive Plain : List Char → Prop
  | blank {header : List Char} (blank : Blank header) : Plain header
  | word {before word after : List Char} (leading : Blank before) (isWord : Word word)
      (trailing : Blank after) : Plain (before ++ (word ++ after))
  | words {before scheme gap rest after : List Char} (leading : Blank before)
      (isScheme : Word scheme) (between : Blank gap) (apart : gap ≠ []) (trimmed : Trimmed rest)
      (single : isBearer scheme = true → ∀ c ∈ rest, typescriptSpace c = false)
      (trailing : Blank after) : Plain (before ++ ((scheme ++ (gap ++ rest)) ++ after))

/-- What the plain headers are read as: a language's white space lies between what is white
space in all of them and what is in some. -/
structure Between (space : Char → Bool) : Prop where
  shared : ∀ c, sharedSpace c = true → space c = true
  some : ∀ c, someSpace c = false → space c = false

theorem python_between : Between pythonSpace where
  shared := fun c shared => by simp [pythonSpace, shared]
  some := fun c none => by
    simp only [someSpace, Bool.or_eq_false_iff] at none
    exact none.1.1

theorem typescript_between : Between typescriptSpace where
  shared := fun c shared => by simp [typescriptSpace, shared]
  some := fun c none => by
    simp only [someSpace, Bool.or_eq_false_iff] at none
    exact none.1.2

theorem rust_between : Between rustSpace where
  shared := fun c shared => by simp [rustSpace, shared]
  some := fun c none => by
    simp only [someSpace, Bool.or_eq_false_iff] at none
    exact none.2

theorem Word.trimmed (isWord : Word word) : Trimmed word := by
  obtain ⟨filled, solid⟩ := isWord
  constructor
  · cases word with
    | nil => exact absurd rfl filled
    | cons c rest => exact ⟨c, rest, rfl, solid c List.mem_cons_self⟩
  · refine ⟨word.dropLast, word.getLast filled, (List.dropLast_append_getLast filled).symm, ?_⟩
    exact solid _ (List.getLast_mem filled)

section
variable {space : Char → Bool} (between : Between space)
include between

theorem Between.blank {text : List Char} (blank : Blank text) : ∀ c ∈ text, space c = true :=
  fun c member => between.shared c (blank c member)

theorem Between.solid {text : List Char} (isWord : Word text) :
    ∀ c ∈ text, (!space c) = true := by
  intro c member
  rw [between.some c (isWord.2 c member)]
  rfl

theorem Between.dropWhile_trimmed {text : List Char} (trimmed : Trimmed text)
    (after : List Char) : (text ++ after).dropWhile space = text ++ after := by
  obtain ⟨⟨c, rest, rfl, none⟩, -⟩ := trimmed
  rw [List.cons_append, List.dropWhile_cons_of_neg]
  rw [between.some c none]
  exact Bool.false_ne_true

theorem Between.rdropWhile_trimmed {text : List Char} (trimmed : Trimmed text)
    (before : List Char) : (before ++ text).rdropWhile space = before ++ text := by
  obtain ⟨-, front, c, rfl, none⟩ := trimmed
  rw [← List.append_assoc, List.rdropWhile_concat_neg]
  rw [between.some c none]
  exact Bool.false_ne_true

theorem Between.strip_trimmed {before text after : List Char} (leading : Blank before)
    (trimmed : Trimmed text) (trailing : Blank after) :
    strip space (before ++ (text ++ after)) = text := by
  unfold strip
  have front : (before ++ (text ++ after)).dropWhile space = text ++ after := by
    rw [List.dropWhile_append_of_pos (between.blank leading),
      between.dropWhile_trimmed trimmed after]
  rw [front, List.rdropWhile, List.reverse_append, List.dropWhile_append_of_pos, ← List.rdropWhile]
  · exact between.rdropWhile_trimmed trimmed []
  · intro c member
    exact between.blank trailing c (List.mem_reverse.mp member)

theorem Between.strip_self {text : List Char} (trimmed : Trimmed text) :
    strip space text = text := by
  have stripped : strip space ([] ++ (text ++ [])) = text :=
    between.strip_trimmed nofun trimmed nofun
  rwa [List.append_nil] at stripped

theorem Between.strip_blank {text : List Char} (blank : Blank text) : strip space text = [] := by
  unfold strip
  rw [List.dropWhile_eq_nil_iff.mpr (between.blank blank)]
  rfl

theorem Between.takeWhile_scheme {scheme gap rest : List Char} (isScheme : Word scheme)
    (isGap : Blank gap) (apart : gap ≠ []) :
    (scheme ++ (gap ++ rest)).takeWhile (fun c => !space c) = scheme := by
  rw [List.takeWhile_append_of_pos (between.solid isScheme)]
  obtain ⟨blank, more, rfl⟩ := List.exists_cons_of_ne_nil apart
  have isBlank : space blank = true := between.blank isGap blank List.mem_cons_self
  rw [List.cons_append, List.takeWhile_cons_of_neg (by simp [isBlank]), List.append_nil]

theorem Between.dropWhile_scheme {scheme gap rest : List Char} (isScheme : Word scheme)
    (isGap : Blank gap) (apart : gap ≠ []) :
    (scheme ++ (gap ++ rest)).dropWhile (fun c => !space c) = gap ++ rest := by
  rw [List.dropWhile_append_of_pos (between.solid isScheme)]
  obtain ⟨blank, more, rfl⟩ := List.exists_cons_of_ne_nil apart
  have isBlank : space blank = true := between.blank isGap blank List.mem_cons_self
  rw [List.cons_append, List.dropWhile_cons_of_neg (by simp [isBlank])]

theorem Between.dropWhile_gap {gap rest : List Char} (isGap : Blank gap)
    (trimmed : Trimmed rest) : (gap ++ rest).dropWhile space = rest := by
  rw [List.dropWhile_append_of_pos (between.blank isGap)]
  have kept := between.dropWhile_trimmed trimmed []
  rwa [List.append_nil] at kept

theorem Between.takeWhile_word (isWord : Word word) :
    word.takeWhile (fun c => !space c) = word :=
  List.takeWhile_eq_self_iff.mpr (between.solid isWord)

theorem Between.dropWhile_word (isWord : Word word) :
    word.dropWhile (fun c => !space c) = [] :=
  List.dropWhile_eq_nil_iff.mpr (between.solid isWord)

end

theorem Trimmed.ne_nil {text : List Char} (trimmed : Trimmed text) : text ≠ [] := by
  obtain ⟨⟨c, rest, rfl, -⟩, -⟩ := trimmed
  exact List.cons_ne_nil c rest

theorem nonempty_of_trimmed {text : List Char} (trimmed : Trimmed text) :
    nonempty text = some text := if_neg trimmed.ne_nil

theorem trimmed_words {scheme gap rest : List Char} (isScheme : Word scheme)
    (trimmed : Trimmed rest) : Trimmed (scheme ++ (gap ++ rest)) := by
  obtain ⟨⟨c, more, rfl, first⟩, -⟩ := isScheme.trimmed
  obtain ⟨-, front, last, rfl, lastNone⟩ := trimmed
  refine ⟨⟨c, more ++ (gap ++ (front ++ [last])), rfl, first⟩, ?_⟩
  exact ⟨c :: more ++ (gap ++ front), last, by simp, lastNone⟩

/-! ## The gates read a plain header alike -/

variable {header : List Char} {space : Char → Bool} {secret : Option (List Char)}

inductive Reads : List Char → Option (List Char) → Prop
  | blank {header : List Char} (blank : Blank header) : Reads header none
  | word {before word after : List Char} (leading : Blank before) (isWord : Word word)
      (trailing : Blank after) : Reads (before ++ (word ++ after)) (some word)
  | bearer {before scheme gap rest after : List Char} (leading : Blank before)
      (isScheme : Word scheme) (between : Blank gap) (apart : gap ≠ []) (trimmed : Trimmed rest)
      (bearer : isBearer scheme = true) (single : ∀ c ∈ rest, typescriptSpace c = false)
      (trailing : Blank after) :
      Reads (before ++ ((scheme ++ (gap ++ rest)) ++ after)) (some rest)
  | other {before scheme gap rest after : List Char} (leading : Blank before)
      (isScheme : Word scheme) (between : Blank gap) (apart : gap ≠ []) (trimmed : Trimmed rest)
      (unknown : isBearer scheme = false) (trailing : Blank after) :
      Reads (before ++ ((scheme ++ (gap ++ rest)) ++ after)) none

theorem Plain.reads (plain : Plain header) :
    ∃ secret, Reads header secret := by
  cases plain with
  | blank blank => exact ⟨none, .blank blank⟩
  | word leading isWord trailing => exact ⟨_, .word leading isWord trailing⟩
  | @words before scheme gap rest after leading isScheme between apart trimmed single trailing =>
    cases bearer : isBearer scheme with
    | true =>
      exact ⟨_, .bearer leading isScheme between apart trimmed bearer (single bearer) trailing⟩
    | false => exact ⟨_, .other leading isScheme between apart trimmed bearer trailing⟩

theorem splitFirst_words (inside : Between space) {scheme gap rest : List Char}
    (isScheme : Word scheme) (isGap : Blank gap) (apart : gap ≠ []) (trimmed : Trimmed rest) :
    splitFirst space (scheme ++ (gap ++ rest)) = [scheme, rest] := by
  have whole : (scheme ++ (gap ++ rest)).takeWhile (fun c => !space c) = scheme :=
    inside.takeWhile_scheme isScheme isGap apart
  have behind : (scheme ++ (gap ++ rest)).dropWhile (fun c => !space c) = gap ++ rest :=
    inside.dropWhile_scheme isScheme isGap apart
  have atRest := inside.dropWhile_gap isGap trimmed
  obtain ⟨c, more, rfl⟩ := List.exists_cons_of_ne_nil isScheme.1
  obtain ⟨d, others, rfl⟩ := List.exists_cons_of_ne_nil trimmed.ne_nil
  rw [List.cons_append] at whole behind ⊢
  simp only [splitFirst, whole, behind, atRest]

theorem splitFirst_word (inside : Between space) (isWord : Word word) :
    splitFirst space word = [word] := by
  have whole := inside.takeWhile_word isWord
  have behind := inside.dropWhile_word isWord
  obtain ⟨c, more, rfl⟩ := List.exists_cons_of_ne_nil isWord.1
  simp only [splitFirst, whole, behind, List.dropWhile_nil]

theorem Python.parseBearer_reads (reads : Reads header secret) :
    Python.parseBearer (some header) = secret := by
  have inside := python_between
  have unguarded : Python.parseBearer (some header) =
      match splitFirst pythonSpace (strip pythonSpace header) with
      | [scheme, secret] => if isBearer scheme then nonempty (strip pythonSpace secret) else none
      | [word] => nonempty (strip pythonSpace word)
      | _ => none := by
    rw [Python.parseBearer]
    split
    · next isEmpty =>
      rw [isEmpty]
      rfl
    · rfl
  rw [unguarded]
  cases reads with
  | blank blank =>
    rw [inside.strip_blank blank]
    rfl
  | word leading isWord trailing =>
    rw [inside.strip_trimmed leading isWord.trimmed trailing, splitFirst_word inside isWord]
    simp only [inside.strip_self isWord.trimmed, nonempty_of_trimmed isWord.trimmed]
  | bearer leading isScheme between apart trimmed bearer single trailing =>
    rw [inside.strip_trimmed leading (trimmed_words isScheme trimmed) trailing,
      splitFirst_words inside isScheme between apart trimmed]
    simp only [bearer, if_true, inside.strip_self trimmed, nonempty_of_trimmed trimmed]
  | other leading isScheme between apart trimmed unknown trailing =>
    rw [inside.strip_trimmed leading (trimmed_words isScheme trimmed) trailing,
      splitFirst_words inside isScheme between apart trimmed]
    simp only [unknown, Bool.false_eq_true, if_false]

theorem splitTwo_words (inside : Between space) {scheme gap rest : List Char}
    (isScheme : Word scheme) (isGap : Blank gap) (apart : gap ≠ []) (trimmed : Trimmed rest) :
    splitTwo space (scheme ++ (gap ++ rest)) =
      [scheme, rest.takeWhile fun c => !space c] := by
  have behind : (scheme ++ (gap ++ rest)).dropWhile (fun c => !space c) = gap ++ rest :=
    inside.dropWhile_scheme isScheme isGap apart
  have atRest := inside.dropWhile_gap isGap trimmed
  rw [splitTwo, inside.takeWhile_scheme isScheme isGap apart, behind]
  obtain ⟨blank, more, rfl⟩ := List.exists_cons_of_ne_nil apart
  rw [List.cons_append] at atRest ⊢
  simp only [atRest]

theorem splitTwo_word (inside : Between space) (isWord : Word word) :
    splitTwo space word = [word] := by
  rw [splitTwo, inside.takeWhile_word isWord, inside.dropWhile_word isWord]

theorem TypeScript.parseBearer_reads (reads : Reads header secret) :
    TypeScript.parseBearer (some header) = secret := by
  have inside := typescript_between
  have unguarded : TypeScript.parseBearer (some header) =
      match splitTwo typescriptSpace (strip typescriptSpace header) with
      | [scheme, secret] =>
        if isBearer scheme then nonempty (strip typescriptSpace secret) else none
      | [word] => nonempty (strip typescriptSpace word)
      | _ => none := by
    rw [TypeScript.parseBearer]
    split
    · next isEmpty =>
      rw [isEmpty]
      rfl
    · rfl
  rw [unguarded]
  cases reads with
  | blank blank =>
    rw [inside.strip_blank blank]
    rfl
  | word leading isWord trailing =>
    rw [inside.strip_trimmed leading isWord.trimmed trailing, splitTwo_word inside isWord]
    simp only [inside.strip_self isWord.trimmed, nonempty_of_trimmed isWord.trimmed]
  | bearer leading isScheme between apart trimmed bearer single trailing =>
    rw [inside.strip_trimmed leading (trimmed_words isScheme trimmed) trailing,
      splitTwo_words inside isScheme between apart trimmed]
    have whole := List.takeWhile_eq_self_iff.mpr fun c member =>
      show (!typescriptSpace c) = true by rw [single c member]; rfl
    simp only [bearer, if_true, whole, inside.strip_self trimmed, nonempty_of_trimmed trimmed]
  | other leading isScheme between apart trimmed unknown trailing =>
    rw [inside.strip_trimmed leading (trimmed_words isScheme trimmed) trailing,
      splitTwo_words inside isScheme between apart trimmed]
    simp only [unknown, Bool.false_eq_true, if_false]

theorem splitOnce_words (inside : Between space) {scheme gap rest : List Char}
    (isScheme : Word scheme) (isGap : Blank gap) (apart : gap ≠ []) :
    splitOnce space (scheme ++ (gap ++ rest)) = some (scheme, gap.tail ++ rest) := by
  have behind : (scheme ++ (gap ++ rest)).dropWhile (fun c => !space c) = gap ++ rest :=
    inside.dropWhile_scheme isScheme isGap apart
  rw [splitOnce, behind, inside.takeWhile_scheme isScheme isGap apart]
  obtain ⟨blank, more, rfl⟩ := List.exists_cons_of_ne_nil apart
  rfl

theorem splitOnce_word (inside : Between space) (isWord : Word word) :
    splitOnce space word = none := by
  rw [splitOnce, inside.dropWhile_word isWord]

theorem Rust.parseBearer_reads (reads : Reads header secret) :
    Rust.parseBearer (some header) = secret := by
  have inside := rust_between
  rw [Rust.parseBearer]
  cases reads with
  | blank blank =>
    rw [inside.strip_blank blank]
    rfl
  | word leading isWord trailing =>
    rw [inside.strip_trimmed leading isWord.trimmed trailing]
    simp only [if_neg isWord.1, splitOnce_word inside isWord]
  | @bearer before scheme gap rest after leading isScheme between apart trimmed bearer single
      trailing =>
      rw [inside.strip_trimmed leading (trimmed_words isScheme trimmed) trailing]
      have blankTail : Blank gap.tail := fun c member => between c (List.mem_of_mem_tail member)
      have stripped : strip rustSpace (gap.tail ++ (rest ++ [])) = rest :=
        inside.strip_trimmed blankTail trimmed nofun
      rw [List.append_nil] at stripped
      have filled : scheme ++ (gap ++ rest) ≠ [] := (trimmed_words isScheme trimmed).ne_nil
      simp only [if_neg filled,
        splitOnce_words inside isScheme between apart, bearer, if_true, stripped,
        nonempty_of_trimmed trimmed]
  | @other before scheme gap rest after leading isScheme between apart trimmed unknown
      trailing =>
      rw [inside.strip_trimmed leading (trimmed_words isScheme trimmed) trailing]
      have filled : scheme ++ (gap ++ rest) ≠ [] := (trimmed_words isScheme trimmed).ne_nil
      simp only [if_neg filled,
        splitOnce_words inside isScheme between apart, unknown, Bool.false_eq_true, if_false]

theorem parseBearer_alike {authorization : Option (List Char)}
    (plain : ∀ header ∈ authorization, Plain header) :
    Python.parseBearer authorization = TypeScript.parseBearer authorization ∧
      Python.parseBearer authorization = Rust.parseBearer authorization := by
  cases authorization with
  | none => exact ⟨rfl, rfl⟩
  | some header =>
    obtain ⟨secret, reads⟩ := (plain header rfl).reads
    rw [Python.parseBearer_reads reads, TypeScript.parseBearer_reads reads,
      Rust.parseBearer_reads reads]
    exact ⟨rfl, rfl⟩

end ComputeMarket.Middleware
