import Bilisp.Node.OfForm
import Bilisp.Proofs.Scanning

/-!
# Paths of segments

A segment holds no separator, so splitting at points and slashes undoes joining with points, and splitting at
`::` undoes joining with `::`. What is joined from segments is spelled as a symbol, unless its first segment
begins like a number.
-/

namespace Bilisp

/-! ## Segments -/

lemma isSegmentChar_of_isSegmentStart {c : Char} (h : isSegmentStart c = true) : isSegmentChar c = true := by
  simp only [isSegmentStart, Bool.and_eq_true] at h
  exact h.1.1.1

lemma segmentChar_ne {c : Char} (h : isSegmentChar c = true) : c ≠ ':' ∧ c ≠ '.' ∧ c ≠ '/' := by
  simp only [isSegmentChar, Bool.and_eq_true, Bool.not_eq_true', List.contains_eq_mem,
    decide_eq_false_iff_not] at h
  refine ⟨?_, ?_, ?_⟩
  · rintro rfl
    exact h.2 (by decide)
  · rintro rfl
    exact h.2 (by decide)
  · rintro rfl
    exact h.2 (by decide)

lemma all_isSegmentChar {u : Text} (h : isSegment u = true) : u.all isSegmentChar = true := by
  cases u with
  | nil => rfl
  | cons c rest =>
    rw [isSegment, Bool.and_eq_true] at h
    rw [List.all_cons, isSegmentChar_of_isSegmentStart h.1, h.2]
    rfl

lemma isSegment_append_inside {u t : Text} (h : isSegment u = true) (ht : t.all isSegmentChar = true) :
    isSegment (u ++ t) = true := by
  cases u with
  | nil => cases h
  | cons c rest =>
    rw [isSegment, Bool.and_eq_true] at h
    rw [List.cons_append, isSegment, h.1, List.all_append, h.2, ht]
    rfl

lemma segment_ne_nil {u : Text} (h : isSegment u = true) : u ≠ [] := by
  rintro rfl
  cases h

lemma colon_not_mem_segment {u : Text} (h : isSegment u = true) : ':' ∉ u := fun hmem =>
  (segmentChar_ne (List.all_eq_true.1 (all_isSegmentChar h) ':' hmem)).1 rfl

lemma all_isAtomChar_segment {u : Text} (h : isSegment u = true) : u.all isAtomChar = true := by
  rw [List.all_eq_true]
  exact fun c hc => isAtomChar_of_isSegmentChar (List.all_eq_true.1 (all_isSegmentChar h) c hc)

/-! ## Splitting -/

lemma splitPath_ne_nil (t : Text) : splitPath t ≠ [] := by
  cases t with
  | nil => exact List.cons_ne_nil _ _
  | cons c rest =>
    rw [splitPath]
    split
    · exact List.cons_ne_nil _ _
    · split <;> exact List.cons_ne_nil _ _

lemma splitPath_of_not_mem {u : Text} (hpoint : '.' ∉ u) (hslash : '/' ∉ u) : splitPath u = [u] := by
  induction u with
  | nil => rfl
  | cons c rest ih =>
    rw [List.mem_cons, not_or] at hpoint hslash
    rw [splitPath, if_neg (by simp [Ne.symm hpoint.1, Ne.symm hslash.1]), ih hpoint.2 hslash.2]

lemma splitPath_segment {u : Text} (h : u.all isSegmentChar = true) : splitPath u = [u] := by
  have hchars := fun c hc => segmentChar_ne (List.all_eq_true.1 h c hc)
  exact splitPath_of_not_mem (fun hmem => (hchars _ hmem).2.1 rfl) fun hmem => (hchars _ hmem).2.2 rfl

lemma splitPath_append {separator : Char} (h : separator = '.' ∨ separator = '/') (s t : Text) :
    splitPath (s ++ separator :: t) = splitPath s ++ splitPath t := by
  induction s with
  | nil => exact if_pos (by simpa using h)
  | cons c rest ih =>
    rw [List.cons_append, splitPath, splitPath]
    by_cases hc : c = '.' ∨ c = '/'
    · rw [if_pos (by simpa using hc), if_pos (by simpa using hc), ih, List.cons_append]
    · rw [if_neg (by simpa using hc), if_neg (by simpa using hc), ih]
      cases hsplit : splitPath rest with
      | nil => exact absurd hsplit (splitPath_ne_nil rest)
      | cons part parts => rfl

lemma hasAscription_of_not_mem {t : Text} (h : ':' ∉ t) : hasAscription t = false := by
  fun_induction hasAscription t with
  | case1 rest => exact absurd List.mem_cons_self h
  | case2 c rest hne ih => exact ih fun hmem => h (List.mem_cons_of_mem _ hmem)
  | case3 => rfl

lemma hasAscription_append (s t : Text) : hasAscription (s ++ ':' :: ':' :: t) = true := by
  fun_induction hasAscription s with
  | case1 rest => rfl
  | case2 c rest hne ih =>
    cases rest with
    | nil =>
      by_cases hc : c = ':'
      · rw [hc]
        rfl
      · rw [List.cons_append, hasAscription]
        · exact ih
        · exact fun rest' heq _ => hc heq
    | cons d rest =>
      rw [List.cons_append, hasAscription]
      · exact ih
      · rintro rest' rfl heq
        obtain ⟨rfl, -⟩ := List.cons.inj heq
        exact hne rest rfl rfl
  | case3 => rfl

lemma hasAscription_iff {t : Text} : hasAscription t = true ↔ "::".toList <:+: t := by
  constructor
  · intro h
    fun_induction hasAscription t with
    | case1 rest => exact ⟨[], rest, rfl⟩
    | case2 c rest hne ih => exact (ih h).trans (List.suffix_cons c rest).isInfix
    | case3 => cases h
  · rintro ⟨before, behind, rfl⟩
    rw [List.append_assoc]
    exact hasAscription_append before behind

lemma splitAscription_of_not_mem {t : Text} (h : ':' ∉ t) : splitAscription t = [t] := by
  induction t with
  | nil => rfl
  | cons c rest ih =>
    rw [List.mem_cons, not_or] at h
    rw [splitAscription, ih h.2]
    rintro rest' rfl
    exact absurd rfl h.1

lemma length_splitAscription_pos (t : Text) : 0 < (splitAscription t).length := by
  fun_induction splitAscription t with
  | case1 => exact Nat.one_pos
  | case2 rest ih => exact Nat.succ_pos _
  | case3 c rest hne hsplit ih => exact Nat.one_pos
  | case4 c rest hne part parts hsplit ih => exact Nat.succ_pos _

/-- A text with `::` in it has two parts or more. -/
lemma exists_cons_cons {α : Type} {l : List α} (h : 2 ≤ l.length) : ∃ a b rest, l = a :: b :: rest := by
  rcases l with _ | ⟨a, _ | ⟨b, rest⟩⟩
  · simp at h
  · simp at h
  · exact ⟨a, b, rest, rfl⟩

lemma two_le_length_splitAscription {t : Text} (h : hasAscription t = true) : 2 ≤ (splitAscription t).length := by
  fun_induction splitAscription t with
  | case1 => cases h
  | case2 rest ih => exact Nat.succ_le_succ (length_splitAscription_pos rest)
  | case3 c rest hne hsplit ih =>
    rw [hasAscription] at h
    · simpa [hsplit] using ih h
    · exact hne
  | case4 c rest hne part parts hsplit ih =>
    rw [hasAscription] at h
    · rw [hsplit] at ih
      exact ih h
    · exact hne

lemma splitAscription_append {s : Text} (h : ':' ∉ s) (t : Text) :
    splitAscription (s ++ ':' :: ':' :: t) = s :: splitAscription t := by
  induction s with
  | nil => rfl
  | cons c rest ih =>
    rw [List.mem_cons, not_or] at h
    rw [List.cons_append, splitAscription, ih h.2]
    rintro rest' rfl
    exact absurd rfl h.1

lemma splitAscription_join {names : List Text} (hne : names ≠ []) (h : ∀ u ∈ names, ':' ∉ u) :
    splitAscription (Text.join "::" names) = names := by
  induction names with
  | nil => exact absurd rfl hne
  | cons u rest ih =>
    have hu := h u List.mem_cons_self
    cases rest with
    | nil =>
      rw [Text.join, List.intercalate_singleton]
      exact splitAscription_of_not_mem hu
    | cons v rest =>
      have hjoin : Text.join "::" (u :: v :: rest) = u ++ ':' :: ':' :: Text.join "::" (v :: rest) := by
        rw [Text.join, List.intercalate_cons_cons, List.append_assoc]
        rfl
      rw [hjoin, splitAscription_append hu, ih (List.cons_ne_nil _ _) fun w hw => h w (List.mem_cons_of_mem _ hw)]

/-! ## Spelling -/

/-- What is behind characters of a segment goes on as a path where the segment does. -/
lemma continuesPath_inside {typed : Bool} {u : Text} (h : u.all isSegmentChar = true) (t : Text) :
    continuesPath typed false (u ++ t) = continuesPath typed false t := by
  induction u with
  | nil => rfl
  | cons c rest ih =>
    rw [List.all_cons, Bool.and_eq_true] at h
    obtain ⟨hcolon, hpoint, hslash⟩ := segmentChar_ne h.1
    rw [List.cons_append, continuesPath, if_neg (by simp [hpoint, hslash]), h.1, ih h.2, Bool.true_and]
    rintro rest' rfl
    exact absurd rfl hcolon

/-- Behind a segment a text goes on as a path does inside a segment. -/
lemma continuesPath_behind {typed : Bool} {u : Text} (h : isSegment u = true) (t : Text) :
    continuesPath typed true (u ++ t) = continuesPath typed false t := by
  cases u with
  | nil => cases h
  | cons c rest =>
    rw [isSegment, Bool.and_eq_true] at h
    rw [List.cons_append, continuesPath, h.1, Bool.true_and, continuesPath_inside h.2]

lemma continuesPath_segment {u : Text} (typed : Bool) (h : isSegment u = true) :
    continuesPath typed true u = true := by
  have hbehind : continuesPath typed true (u ++ []) = true := continuesPath_behind h []
  rwa [List.append_nil] at hbehind

/-- What joins segments: a point or a slash, and in a typed path also `::`. -/
def separators (typed : Bool) : List Text := [['.'], ['/']] ++ if typed then [[':', ':']] else []

lemma mem_separators {typed : Bool} {separator : Text} :
    separator ∈ separators typed ↔ separator = ['.'] ∨ separator = ['/'] ∨ separator = [':', ':'] ∧ typed = true := by
  cases typed with
  | true => simp [separators]
  | false => simp [separators]

lemma point_mem_separators (typed : Bool) : ['.'] ∈ separators typed := mem_separators.2 (.inl rfl)

lemma colons_mem_separators : [':', ':'] ∈ separators true := by decide

/-- Behind a path and a separator the text goes on as a path does. -/
lemma continuesPath_append {typed start : Bool} {s : Text} (h : continuesPath typed start s = true)
    {separator : Text} (hseparator : separator ∈ separators typed) (t : Text) :
    continuesPath typed start (s ++ (separator ++ t)) = continuesPath typed true t := by
  fun_induction continuesPath typed start s with
  | case1 start =>
    obtain rfl : start = false := by simpa using h
    rcases mem_separators.1 hseparator with rfl | rfl | ⟨rfl, rfl⟩
    · rfl
    · rfl
    · rfl
  | case2 c rest ih =>
    rw [Bool.and_eq_true] at h
    rw [List.cons_append, continuesPath, h.1, ih h.2, Bool.true_and]
  | case3 rest ih =>
    rw [Bool.and_eq_true] at h
    rw [List.cons_append, List.cons_append, continuesPath, ih h.2, h.1, Bool.true_and]
  | case4 c rest hne hc ih =>
    rw [List.cons_append, continuesPath, if_pos hc, ih h]
    rintro rest' rfl
    simp at hc
  | case5 c rest hne hc ih =>
    rw [Bool.and_eq_true] at h
    rw [List.cons_append, continuesPath, if_neg hc, h.1, ih h.2, Bool.true_and]
    rintro rest' rfl
    exact absurd rfl (segmentChar_ne h.1).1

lemma continuesPath_append_segment {typed start : Bool} {s separator u : Text}
    (h : continuesPath typed start s = true) (hseparator : separator ∈ separators typed) (hu : isSegment u = true) :
    continuesPath typed start (s ++ (separator ++ u)) = true := by
  rw [continuesPath_append h hseparator]
  exact continuesPath_segment typed hu

/-- A text that begins with a segment is no operator token, mark or comment in front. -/
lemma isSymbolToken_of_isPath {s : Text} (hatoms : s.all isAtomChar = true)
    (hpath : continuesPath true true s = true) (hstart : startsNumber s = false) : isSymbolToken s = true := by
  cases s with
  | nil => cases hpath
  | cons c rest =>
    have hc : isSegmentStart c = true := by
      rw [continuesPath, Bool.and_eq_true] at hpath
      exact hpath.1
    have hcolon := (segmentChar_ne (isSegmentChar_of_isSegmentStart hc)).1
    have hmarks : markChars.all (fun d => !isSegmentStart d) = true := by decide
    have hmark : c ∉ markChars := by
      intro hmem
      have hnot := List.all_eq_true.1 hmarks c hmem
      rw [hc] at hnot
      cases hnot
    have htext : isSymbolText (c :: rest) = true := by
      rw [isSymbolText, Bool.or_eq_true]
      right
      rw [isPath]
      · exact hpath
      · rintro rest' heq
        exact absurd (List.cons.inj heq).1 hcolon
    rw [isSymbolToken, hatoms, htext, Bool.true_and, Bool.true_and]
    · simp [hmark, hstart]
    · exact hcolon

lemma startsNumber_of_isSymbolToken {s : Text} (hpath : continuesPath true true s = true)
    (htoken : isSymbolToken s = true) : startsNumber s = false := by
  cases s with
  | nil => rfl
  | cons c rest =>
    rw [continuesPath, Bool.and_eq_true] at hpath
    have hcolon := (segmentChar_ne (isSegmentChar_of_isSegmentStart hpath.1)).1
    rw [isSymbolToken] at htoken
    · simp only [Bool.and_eq_true, Bool.not_eq_true'] at htoken
      exact htoken.2.2
    · exact hcolon

/-- Whether a text begins like a number is decided within its first segment. -/
lemma startsNumber_append {s : Text} (hs : s ≠ []) {c : Char} (hc : isDigit c = false) (t : Text) :
    startsNumber (s ++ c :: t) = startsNumber s := by
  match s with
  | [] => exact absurd rfl hs
  | [d] => simp [startsNumber, hc]
  | d :: e :: rest => rfl

end Bilisp
