import Bilisp.Proofs.Escaping
import Bilisp.Proofs.Paths

/-!
# Names on both sides

A segment of a symbol and a host name belong together when each gives the other (`NamePair`). Every ASCII
identifier of the host and every operator has its segment, and none of these begins like a number.
-/

namespace Bilisp

/-- Whether a host name and a segment of a symbol give each other. -/
structure NamePair (host segment : Text) : Prop where
  isSegment : isSegment segment = true
  escape : escapeSymbol segment = host
  unescape : unescapeSymbol host = segment

/-! ## Operators -/

/-- The characters of the operators that host programs use as names. -/
def plainOperatorChars : List Char := "+-*<>=!&|%^÷$≤≥≠".toList

/-- Whether a name is made of such characters only. -/
def isPlainOperator (name : Text) : Bool := !name.isEmpty && name.all plainOperatorChars.contains

lemma isOperator_of_isPlainOperator {name : Text} (h : isPlainOperator name = true) : isOperator name = true := by
  have hsub : plainOperatorChars ⊆ operatorChars := by decide
  rw [isPlainOperator, Bool.and_eq_true, List.all_eq_true] at h
  rw [isOperator, h.1, Bool.true_and, List.all_eq_true]
  intro c hc
  have hmem := h.2 c hc
  rw [List.contains_iff_mem] at hmem ⊢
  exact hsub hmem

lemma plainOperator_chars {name : Text} (h : isPlainOperator name = true) :
    ∀ c ∈ name, isSegmentStart c = true ∧ isDigit c = false := by
  have hall : plainOperatorChars.all (fun c => isSegmentStart c && !isDigit c) = true := by decide
  rw [isPlainOperator, Bool.and_eq_true, List.all_eq_true] at h
  intro c hc
  have hmem := h.2 c hc
  rw [List.contains_iff_mem] at hmem
  simpa using List.all_eq_true.1 hall c hmem

lemma namePair_plainOperator {name : Text} (h : isPlainOperator name = true) : NamePair name name := by
  have hop := isOperator_of_isPlainOperator h
  refine ⟨?_, escapeSymbol_operator hop, unescapeSymbol_operator hop⟩
  have hchars := plainOperator_chars h
  cases name with
  | nil => cases h
  | cons c rest =>
    rw [isSegment, (hchars c List.mem_cons_self).1, Bool.true_and, List.all_eq_true]
    exact fun d hd => isSegmentChar_of_isSegmentStart (hchars d (List.mem_cons_of_mem _ hd)).1

lemma startsNumber_of_not_digits {t : Text} (h : ∀ c ∈ t, isDigit c = false) : startsNumber t = false := by
  match t with
  | [] => rfl
  | [c] => simp [startsNumber, h c (by simp)]
  | c :: d :: rest => simp [startsNumber, h c (by simp), h d (by simp)]

/-! ## Symbols that begin like numbers -/

/-- Whether a host name begins with what stands for a sign and with a digit that is no decimal digit. -/
def SignsDigit (host : Text) : Prop :=
  ∃ d rest, (host = '_' :: d :: rest ∨ host = "_PLUS_".toList ++ d :: rest) ∧ isDigit d = true ∧ isDecimal d = false

lemma isCapital_of_isDigit {c : Char} (h : isDigit c = true) : isCapital c = false := by
  rw [← Bool.not_eq_true]
  intro hcapital
  have hle : c ≤ 'z' := by
    simp only [isCapital, Bool.and_eq_true, decide_eq_true_eq] at hcapital
    exact Char.le_trans hcapital.2 (by decide)
  have hletters := forall_ascii (p := fun c => isCapital c = true → isDigit c = false) (by decide) hle hcapital
  rw [hletters] at h
  cases h

lemma not_digit_of_mem {c : Char} (h : isDigit c = true) : c ≠ '_' ∧ c ∉ surfaceChars ∧ c ∉ operatorChars := by
  have hchars : (('_' :: surfaceChars ++ operatorChars).all fun c => !isDigit c) = true := by decide
  have hnot : c ∉ '_' :: surfaceChars ++ operatorChars := by
    intro hmem
    have hdigit := List.all_eq_true.1 hchars c hmem
    rw [h] at hdigit
    cases hdigit
  simpa using hnot

lemma escapeSymbol_cons {c : Char} {rest : Text} (h : isOperator (c :: rest) = false) (hc : c ≠ '@') :
    escapeSymbol (c :: rest) = hostChar c ++ rest.flatMap hostChar := by
  rw [escapeSymbol_eq h, takeAt_eq_ite, if_neg (by simpa using hc), List.nil_append, List.flatMap_cons]

lemma isOperator_of_mem {t : Text} {c : Char} (hc : c ∈ t) (hdigit : isDigit c = true) : isOperator t = false := by
  rw [← Bool.not_eq_true, isOperator_iff]
  intro h
  exact (not_digit_of_mem hdigit).2.2 (List.contains_iff_mem.1 (h.2 c hc))

lemma escapeSymbol_of_isDigit {c : Char} {rest : Text} (h : isDigit c = true) :
    escapeSymbol (c :: rest) = c :: rest.flatMap hostChar := by
  obtain ⟨-, hsurface, -⟩ := not_digit_of_mem h
  have hat : c ≠ '@' := by
    rintro rfl
    exact hsurface (by decide)
  rw [escapeSymbol_cons (isOperator_of_mem List.mem_cons_self h) hat, hostChar_of_not_mem hsurface]
  rfl

/-- If the symbol of a name begins like a number and the name does not, then there is a sign in front of a digit
that the conversion of names does not count as one. -/
lemma signsDigit_of_startsNumber {host : Text} (hhost : startsNumber host = false)
    (h : startsNumber (unescapeSymbol host) = true) : SignsDigit host := by
  have hne : unescapeSymbol host ≠ host := by
    intro heq
    rw [heq, hhost] at h
    cases h
  obtain ⟨-, hspells⟩ := unescapeSymbol_of_ne hne
  generalize unescapeSymbol host = symbol at h hspells hne
  simp only [spells, Bool.and_eq_true, Bool.not_eq_true', beq_iff_eq] at hspells
  obtain ⟨⟨hsegment, hsigned⟩, rfl⟩ := hspells
  rcases symbol with _ | ⟨c, _ | ⟨d, rest⟩⟩
  · cases h
  · have hdigit : isDigit c = true := by simpa [startsNumber] using h
    rw [escapeSymbol_of_isDigit hdigit, startsNumber, hdigit] at hhost
    cases hhost
  · cases hdigit : isDigit c with
    | true =>
      rw [escapeSymbol_of_isDigit hdigit, startsNumber, hdigit] at hhost
      cases hhost
    | false =>
      obtain ⟨hsign, hd⟩ : (c = '+' ∨ c = '-') ∧ isDigit d = true := by simpa [startsNumber, hdigit] using h
      have hdecimal : isDecimal d = false := by simpa [startsSigned, hsign] using hsigned
      have hop : isOperator (c :: d :: rest) = false := isOperator_of_mem (by simp) hd
      have hescape := escapeSymbol_cons hop (by rintro rfl; simp at hsign)
      rw [List.flatMap_cons, hostChar_of_not_mem (not_digit_of_mem hd).2.1] at hescape
      refine ⟨d, rest.flatMap hostChar, ?_, hd, hdecimal⟩
      rw [hescape]
      rcases hsign with rfl | rfl
      · exact .inr rfl
      · exact .inl rfl

lemma startsNumber_of_signsDigit {host : Text} (h : SignsDigit host) (hne : unescapeSymbol host ≠ host) :
    startsNumber (unescapeSymbol host) = true := by
  have hplus : ('+', "_PLUS_".toList) ∈ hostCodes := by decide
  obtain ⟨d, rest, htext, hdigit, -⟩ := h
  have hbehind : decodeHost (d :: rest) = d :: decodeHost rest := decodeHost_of_ne (not_digit_of_mem hdigit).1 rest
  have hcapital : ∀ c ∈ (d :: rest).head?, isCapital c = false := by
    rintro _ ⟨⟩
    exact isCapital_of_isDigit hdigit
  rw [(unescapeSymbol_of_ne hne).1]
  rcases htext with rfl | rfl
  · change startsNumber (decodeHost ('_' :: d :: rest)) = true
    rw [decodeHost_hyphen hcapital, hbehind]
    simp [startsNumber, hdigit]
  · change startsNumber (decodeHost ("_PLUS_".toList ++ d :: rest)) = true
    rw [decodeHost_code hplus, hbehind]
    simp [startsNumber, hdigit]

/-! ## Host identifiers -/

/-- Whether a character may stand in a host identifier. -/
def isHostChar (c : Char) : Bool := isAsciiAlphanumeric c || c = '_'

/-- Whether a name is a host identifier: letters, digits and underscores of ASCII, no digit in front. -/
def isHostName : Text → Bool
  | [] => false
  | c :: rest => isHostChar c && !isDecimal c && rest.all isHostChar

lemma le_of_isHostChar {c : Char} (h : isHostChar c = true) : c ≤ 'z' := by
  simp only [isHostChar, Bool.or_eq_true, decide_eq_true_eq] at h
  rcases h with h | rfl
  · exact le_of_isAsciiAlphanumeric h
  · decide

lemma hostChar_facts {c : Char} (h : isHostChar c = true) :
    isSegmentChar c = true ∧ c ≠ '#' ∧ c ≠ '\'' ∧ c ≠ '@' ∧ c ≠ '+' ∧ c ≠ '-' ∧ c ∉ surfaceChars ∧
      operatorChars.contains c = false ∧ isDigit c = isDecimal c :=
  forall_ascii (p := fun c => isHostChar c = true → isSegmentChar c = true ∧ c ≠ '#' ∧ c ≠ '\'' ∧ c ≠ '@' ∧
    c ≠ '+' ∧ c ≠ '-' ∧ c ∉ surfaceChars ∧ operatorChars.contains c = false ∧ isDigit c = isDecimal c)
    (by decide) (le_of_isHostChar h) h

lemma decodeHost_ne_nil {t : Text} (h : t ≠ []) : decodeHost t ≠ [] := by
  cases t with
  | nil => exact absurd rfl h
  | cons c rest =>
    rw [decodeHost]
    split
    · split <;> exact List.cons_ne_nil _ _
    · exact List.cons_ne_nil _ _

lemma all_isHostChar {x : Text} (h : isHostName x = true) : x.all isHostChar = true := by
  cases x with
  | nil => rfl
  | cons c rest =>
    simp only [isHostName, Bool.and_eq_true] at h
    rw [List.all_cons, h.1.1, h.2]
    rfl

section

variable {lead x : Text} (hlead : lead = [] ∨ lead = ['@']) (hx : isHostName x = true)

include hlead hx

lemma takeAt_append : takeAt (lead ++ x) = (lead, x) := by
  rcases hlead with rfl | rfl
  · cases x with
    | nil => cases hx
    | cons c rest =>
      rw [List.nil_append, takeAt]
      rintro rest' heq
      simp only [isHostName, Bool.and_eq_true] at hx
      exact (hostChar_facts hx.1.1).2.2.2.1 (List.cons.inj heq).1
  · rfl

lemma isOperator_append : isOperator (lead ++ x) = false := by
  rcases hlead with rfl | rfl
  · cases x with
    | nil => cases hx
    | cons c rest =>
      simp only [isHostName, Bool.and_eq_true] at hx
      have hc := (hostChar_facts hx.1.1).2.2.2.2.2.2.2.1
      rw [isOperator, List.nil_append, List.all_cons, hc]
      rfl
  · rfl

lemma escapeSymbol_append : escapeSymbol (lead ++ x) = lead ++ x := by
  refine escapeSymbol_eq_self_iff.2 (.inr ?_)
  rw [← takeAt_snd, takeAt_append hlead hx]
  exact fun c hc => (hostChar_facts (List.all_eq_true.1 (all_isHostChar hx) c hc)).2.2.2.2.2.2.1

lemma isSegment_append : isSegment (lead ++ x) = true := by
  have hall : x.all isSegmentChar = true := by
    rw [List.all_eq_true]
    exact fun c hc => (hostChar_facts (List.all_eq_true.1 (all_isHostChar hx) c hc)).1
  rcases hlead with rfl | rfl
  · cases x with
    | nil => cases hx
    | cons c rest =>
      simp only [isHostName, Bool.and_eq_true, Bool.not_eq_true'] at hx
      obtain ⟨hc, hhash, hquote, -⟩ := hostChar_facts hx.1.1
      rw [List.all_cons, Bool.and_eq_true] at hall
      rw [List.nil_append, isSegment, isSegmentStart, hc, hx.1.2, hall.2]
      simp [hhash, hquote]
  · rw [List.singleton_append, isSegment, hall]
    decide

/-- A host identifier, which may follow an `@`, and its symbol give each other. -/
lemma namePair_append : NamePair (lead ++ x) (unescapeSymbol (lead ++ x)) := by
  rcases unescapeSymbol_cases (isOperator_append hlead hx) with ⟨-, hspells⟩ | heq
  · simp only [spells, Bool.and_eq_true, beq_iff_eq] at hspells
    exact ⟨hspells.1.1, hspells.2, rfl⟩
  · rw [heq]
    exact ⟨isSegment_append hlead hx, escapeSymbol_append hlead hx, heq⟩

end

lemma namePair_hostName {x : Text} (hx : isHostName x = true) : NamePair x (unescapeSymbol x) :=
  namePair_append (.inl rfl) hx

/-- The symbol of a host identifier does not begin like a number. -/
lemma startsNumber_unescapeSymbol {x : Text} (hx : isHostName x = true) :
    startsNumber (unescapeSymbol x) = false := by
  have hchars : ∀ c ∈ x, isDigit c = isDecimal c := fun c hc =>
    (hostChar_facts (List.all_eq_true.1 (all_isHostChar hx) c hc)).2.2.2.2.2.2.2.2
  have hstart : startsNumber x = false := by
    cases x with
    | nil => cases hx
    | cons c rest =>
      simp only [isHostName, Bool.and_eq_true, Bool.not_eq_true'] at hx
      obtain ⟨-, -, -, -, hplus, hminus, -, -, hdigit⟩ := hostChar_facts hx.1.1
      rw [startsNumber, hdigit, hx.1.2]
      simp [hplus, hminus]
  rw [← Bool.not_eq_true]
  intro hnumber
  obtain ⟨d, rest, htext, hdigit, hdecimal⟩ := signsDigit_of_startsNumber hstart hnumber
  have hmem : d ∈ x := by rcases htext with rfl | rfl <;> simp
  rw [hchars d hmem, hdecimal] at hdigit
  cases hdigit

/-- The symbol of a host identifier does not begin like the name of a macro. -/
lemma head?_unescapeSymbol {x : Text} (hx : isHostName x = true) : (unescapeSymbol x).head? ≠ some '@' := by
  have hescape := (namePair_hostName hx).escape
  intro hhead
  match hu : unescapeSymbol x with
  | [] => simp [hu] at hhead
  | c :: rest =>
    rw [hu] at hhead hescape
    obtain rfl : c = '@' := by simpa using hhead
    have hop : isOperator ('@' :: rest) = false := rfl
    rw [escapeSymbol, hop, if_neg Bool.false_ne_true, takeAt] at hescape
    rw [← hescape] at hx
    cases hx

/-- The symbol of a macro's name is an `@` with something behind it. -/
lemma unescapeSymbol_macroName {x : Text} (hx : isHostName x = true) :
    ∃ rest, rest ≠ [] ∧ unescapeSymbol ('@' :: x) = '@' :: rest := by
  have hne : x ≠ [] := by
    rintro rfl
    cases hx
  rcases unescapeSymbol_cases (isOperator_append (.inr rfl) hx) with ⟨htext, -⟩ | heq
  · refine ⟨decodeHost x, decodeHost_ne_nil hne, ?_⟩
    rw [takeAt_append (.inr rfl) hx] at htext
    exact htext
  · exact ⟨x, hne, heq⟩

end Bilisp
