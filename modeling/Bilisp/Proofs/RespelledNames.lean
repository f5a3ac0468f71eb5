import Bilisp.Proofs.CanonicalNodes
import Bilisp.Proofs.SymbolGrammar
import Bilisp.Proofs.SymbolNodes

/-!
# Symbols that are written again

The parts of a symbol become host names, and these are written as symbols again, not always in the same spelling
(`respelled`). What is written again in place of a part stands for the same host name and is a part of a path again,
so the parts of a symbol make a symbol again when they are joined by points, unless it begins like a number
(`isSymbolToken_respelled`).
-/

namespace Bilisp

/-- What is written for the host name of a symbol. -/
def respelled (s : Text) : Text := unescapeSymbol (escapeSymbol s)

lemma escapeSymbol_respelled (s : Text) : escapeSymbol (respelled s) = escapeSymbol s :=
  escapeSymbol_unescapeSymbol_iff.2 (escapeSymbol_escapeSymbol s)

lemma respelled_operator {s : Text} (h : isOperator s = true) : respelled s = s := by
  rw [respelled, escapeSymbol_operator h, unescapeSymbol_operator h]

/-- A symbol is written again as its host name, or in a spelling that is one segment. -/
lemma respelled_cases (s : Text) : respelled s = escapeSymbol s ∨ isSegment (respelled s) = true := by
  by_cases h : respelled s = escapeSymbol s
  · exact .inl h
  · have hspells := (unescapeSymbol_of_ne h).2
    simp only [spells, Bool.and_eq_true] at hspells
    exact .inr hspells.1.1

/-! ## Host names of segments -/

lemma code_isSegment {entry : Char × Text} (h : entry ∈ hostCodes) : isSegment entry.2 = true := by
  have hcodes : ∀ entry ∈ hostCodes, isSegment entry.2 = true := by decide
  exact hcodes entry h

lemma isSegment_hostChar {c : Char} (h : isSegmentStart c = true) : isSegment (hostChar c) = true := by
  rcases hostChar_cases c with ⟨-, heq⟩ | hcode | ⟨-, heq⟩
  · rw [heq]
    decide
  · exact code_isSegment hcode
  · rw [heq, isSegment, h]
    rfl

lemma all_isSegmentChar_hostChar {c : Char} (h : isSegmentChar c = true) :
    (hostChar c).all isSegmentChar = true := by
  rcases hostChar_cases c with ⟨-, heq⟩ | hcode | ⟨-, heq⟩
  · rw [heq]
    decide
  · exact all_isSegmentChar (code_isSegment hcode)
  · rw [heq, List.all_cons, h]
    rfl

lemma hostChar_separator {c : Char} (h : c = '.' ∨ c = '/' ∨ c = ':') : hostChar c = [c] := by
  refine hostChar_of_not_mem ?_
  rcases h with rfl | rfl | rfl <;> decide

/-- The host names of a path make a path. -/
lemma continuesPath_flatMap {typed start : Bool} {t : Text} (h : continuesPath typed start t = true) :
    continuesPath typed start (t.flatMap hostChar) = true := by
  fun_induction continuesPath typed start t with
  | case1 start => exact h
  | case2 c rest ih =>
    rw [Bool.and_eq_true] at h
    rw [List.flatMap_cons, continuesPath_behind (isSegment_hostChar h.1)]
    exact ih h.2
  | case3 rest ih =>
    rw [Bool.and_eq_true] at h
    rw [List.flatMap_cons, List.flatMap_cons, hostChar_separator (.inr (.inr rfl))]
    exact Bool.and_eq_true _ _ ▸ ⟨h.1, ih h.2⟩
  | case4 c rest hne hc ih =>
    have hc' : c = '.' ∨ c = '/' := by simpa using hc
    rw [List.flatMap_cons, hostChar_separator (by tauto), List.singleton_append, continuesPath, if_pos hc, ih h]
    rintro rest' rfl
    simp at hc
  | case5 c rest hne hc ih =>
    rw [Bool.and_eq_true] at h
    rw [List.flatMap_cons, continuesPath_inside (all_isSegmentChar_hostChar h.1)]
    exact ih h.2

lemma continuesPath_escapeSymbol {t : Text} (h : continuesPath true true t = true) :
    continuesPath true true (escapeSymbol t) = true := by
  by_cases hop : isOperator t = true
  · rwa [escapeSymbol_operator hop]
  · rw [escapeSymbol_eq (by simpa using hop)]
    match t with
    | [] => cases h
    | c :: rest =>
      by_cases hat : c = '@'
      · subst hat
        rw [continuesPath, Bool.and_eq_true] at h
        change (isSegmentStart '@' && continuesPath true false (rest.flatMap hostChar)) = true
        rw [h.1, continuesPath_flatMap h.2]
        rfl
      · rw [takeAt_eq_ite, if_neg (by simpa using hat)]
        exact continuesPath_flatMap h

lemma continuesPath_respelled {t : Text} (h : continuesPath true true t = true) :
    continuesPath true true (respelled t) = true := by
  rcases respelled_cases t with heq | hsegment
  · rw [heq]
    exact continuesPath_escapeSymbol h
  · exact continuesPath_segment true hsegment

lemma isPath_of_continuesPath {t : Text} (h : continuesPath true true t = true) : isPath t = true := by
  cases t with
  | nil => cases h
  | cons c rest =>
    have hstart := h
    rw [continuesPath, Bool.and_eq_true] at hstart
    rwa [isPath_eq_continuesPath hstart.1]

lemma isPath_cases {t : Text} (h : isPath t = true) :
    continuesPath true true t = true ∨ ∃ rest, t = ':' :: ':' :: rest ∧ continuesPath true true rest = true := by
  unfold isPath at h
  split at h
  next rest => exact .inr ⟨rest, rfl, h⟩
  next => exact .inl h

lemma isPath_respelled {t : Text} (h : isPath t = true) : isPath (respelled t) = true := by
  rcases isPath_cases h with hpath | ⟨rest, rfl, hrest⟩
  · exact isPath_of_continuesPath (continuesPath_respelled hpath)
  · rcases respelled_cases (':' :: ':' :: rest) with heq | hsegment
    · rw [heq]
      by_cases hop : isOperator (':' :: ':' :: rest) = true
      · rwa [escapeSymbol_operator hop]
      · rw [escapeSymbol_eq (by simpa using hop)]
        exact continuesPath_flatMap hrest
    · exact isPath_of_continuesPath (continuesPath_segment true hsegment)

lemma isSegment_escapeSymbol {u : Text} (h : isSegment u = true) : isSegment (escapeSymbol u) = true := by
  have hinside {t : Text} (ht : t.all isSegmentChar = true) : (t.flatMap hostChar).all isSegmentChar = true := by
    rw [List.all_flatMap, List.all_eq_true]
    exact fun c hc => all_isSegmentChar_hostChar (List.all_eq_true.1 ht c hc)
  by_cases hop : isOperator u = true
  · rwa [escapeSymbol_operator hop]
  · rw [escapeSymbol_eq (by simpa using hop)]
    cases u with
    | nil => cases h
    | cons c rest =>
      rw [isSegment, Bool.and_eq_true] at h
      by_cases hat : c = '@'
      · subst hat
        change (isSegmentStart '@' && (rest.flatMap hostChar).all isSegmentChar) = true
        rw [h.1, hinside h.2]
        rfl
      · rw [takeAt_eq_ite, if_neg (by simpa using hat), List.nil_append, List.flatMap_cons]
        exact isSegment_append_inside (isSegment_hostChar h.1) (hinside h.2)

/-- A segment is written again as a segment that stands for the same name. -/
lemma namePair_respelled {u : Text} (h : isSegment u = true) : NamePair (escapeSymbol u) (respelled u) := by
  refine ⟨?_, escapeSymbol_respelled u, rfl⟩
  rcases respelled_cases u with heq | hsegment
  · rw [heq]
    exact isSegment_escapeSymbol h
  · exact hsegment

/-! ## Names joined by points -/

lemma separators_not_mem_hostChar {c d : Char} (h : d ∈ hostChar c) (hd : d = '.' ∨ d = '/') : d = c := by
  rcases hostChar_cases c with ⟨-, heq⟩ | hcode | ⟨-, heq⟩
  · rw [heq, List.mem_singleton] at h
    subst h
    rcases hd with hd | hd <;> cases hd
  · have hoperator := (code_chars hcode d h).2
    rcases hd with rfl | rfl <;> exact absurd hoperator (by decide)
  · rwa [heq, List.mem_singleton] at h

lemma separators_not_mem_escapeSymbol {u : Text} {d : Char} (hd : d = '.' ∨ d = '/') (h : d ∉ u) :
    d ∉ escapeSymbol u := by
  by_cases hop : isOperator u = true
  · rwa [escapeSymbol_operator hop]
  · rw [escapeSymbol_eq (by simpa using hop), List.mem_append, not_or]
    have hparts := takeAt_eq u
    rw [← hparts, List.mem_append, not_or] at h
    refine ⟨h.1, fun hmem => ?_⟩
    obtain ⟨c, hc, hdc⟩ := List.mem_flatMap.1 hmem
    rw [separators_not_mem_hostChar hdc hd] at h
    exact h.2 hc

lemma separators_not_mem_respelled {u : Text} {d : Char} (hd : d = '.' ∨ d = '/') (h : d ∉ u) : d ∉ respelled u := by
  rcases respelled_cases u with heq | hsegment
  · rw [heq]
    exact separators_not_mem_escapeSymbol hd h
  · intro hmem
    obtain ⟨-, hpoint, hslash⟩ := segmentChar_ne (List.all_eq_true.1 (all_isSegmentChar hsegment) d hmem)
    exact hd.elim hpoint hslash

/-- The parts of a text between points and slashes hold the other characters of the text. -/
lemma mem_of_mem_splitPath {t u : Text} (h : u ∈ splitPath t) {c : Char} (hc : c ∈ u) :
    c ∈ t ∧ c ≠ '.' ∧ c ≠ '/' := by
  induction t generalizing u with
  | nil =>
    obtain rfl := List.mem_singleton.1 h
    cases hc
  | cons d rest ih =>
    rw [splitPath] at h
    split at h
    · rcases List.mem_cons.1 h with rfl | h
      · cases hc
      · exact (ih h hc).imp_left (List.mem_cons_of_mem d)
    next hd =>
      split at h
      next hsplit => exact absurd hsplit (splitPath_ne_nil rest)
      next piece pieces hsplit =>
        rw [hsplit] at ih
        rcases List.mem_cons.1 h with rfl | h
        · rcases List.mem_cons.1 hc with rfl | hc
          · exact ⟨List.mem_cons_self, by simpa using hd⟩
          · exact (ih List.mem_cons_self hc).imp_left (List.mem_cons_of_mem d)
        · exact (ih (List.mem_cons_of_mem _ h) hc).imp_left (List.mem_cons_of_mem d)

lemma splitPath_join {names : List Text} (hne : names ≠ []) (h : ∀ u ∈ names, '.' ∉ u ∧ '/' ∉ u) :
    splitPath (Text.join "." names) = names := by
  induction names with
  | nil => exact absurd rfl hne
  | cons u rest ih =>
    obtain ⟨hu, hrest⟩ := List.forall_mem_cons.1 h
    cases rest with
    | nil =>
      rw [join_singleton]
      exact splitPath_of_not_mem hu.1 hu.2
    | cons v rest =>
      have hbehind := ih (List.cons_ne_nil _ _) hrest
      rw [join_cons_cons]
      refine (splitPath_append (.inl rfl) _ _).trans ?_
      rw [splitPath_of_not_mem hu.1 hu.2]
      exact congrArg (List.cons u) hbehind

/-- The parts of a symbol that are written again behind points are split at the points again. -/
lemma splitPath_join_respelled (t : Text) :
    splitPath (Text.join "." ((splitPath t).map respelled)) = (splitPath t).map respelled := by
  refine splitPath_join (by simpa using splitPath_ne_nil t) fun u hu => ?_
  obtain ⟨v, hv, rfl⟩ := List.mem_map.1 hu
  exact ⟨separators_not_mem_respelled (.inl rfl) fun hmem => (mem_of_mem_splitPath hv hmem).2.1 rfl,
    separators_not_mem_respelled (.inr rfl) fun hmem => (mem_of_mem_splitPath hv hmem).2.2 rfl⟩

lemma eq_of_splitPath {t u : Text} (h : splitPath t = [u]) : t = u := by
  induction t generalizing u with
  | nil => exact (List.singleton_inj.1 h : [] = u)
  | cons c rest ih =>
    rw [splitPath] at h
    split at h
    · exact absurd (List.cons.inj h).2 (splitPath_ne_nil rest)
    · split at h
      next hsplit => exact absurd hsplit (splitPath_ne_nil rest)
      next piece pieces hsplit =>
        obtain ⟨rfl, rfl⟩ := List.cons.inj h
        rw [ih hsplit]

/-- Joining by points what was split writes points for slashes. -/
lemma join_splitPath (t : Text) : Text.join "." (splitPath t) = t.map fun c => if c = '/' then '.' else c := by
  induction t with
  | nil => rfl
  | cons c rest ih =>
    rw [List.map_cons, splitPath]
    cases hsplit : splitPath rest with
    | nil => exact absurd hsplit (splitPath_ne_nil rest)
    | cons piece pieces =>
      rw [hsplit] at ih
      split
      next hc =>
        rw [join_cons_cons, ih]
        rcases (by simpa using hc : c = '.' ∨ c = '/') with rfl | rfl <;> rfl
      next hc =>
        have hslash : c ≠ '/' := by
          rintro rfl
          exact hc rfl
        rw [if_neg hslash, ← ih]
        cases pieces with
        | nil => rw [join_singleton, join_singleton]
        | cons other pieces => rw [join_cons_cons, join_cons_cons]; rfl

/-- What is written again in place of a text is no more empty than the text. -/
lemma respelled_ne_nil {u : Text} (h : u ≠ []) : respelled u ≠ [] := by
  rcases respelled_cases u with heq | hsegment
  · rw [heq]
    by_cases hop : isOperator u = true
    · rwa [escapeSymbol_operator hop]
    · rw [escapeSymbol_eq (by simpa using hop), ne_eq, List.append_eq_nil_iff, List.flatMap_eq_nil_iff]
      rintro ⟨hlead, hchars⟩
      have hrest : (takeAt u).2 = [] :=
        List.eq_nil_iff_forall_not_mem.2 fun c hc => hostChar_ne_nil c (hchars c hc)
      rw [← takeAt_eq u, hlead, hrest] at h
      exact h rfl
  · exact segment_ne_nil hsegment

/-! ## Fields in symbols -/

/-- The pieces of a path between points and slashes are paths. Where a segment has begun already, its rest is at the
front. -/
lemma splitPath_of_continuesPath {typed start : Bool} {t : Text} (h : continuesPath typed start t = true) :
    ∃ piece pieces, splitPath t = piece :: pieces ∧ continuesPath typed start piece = true ∧
      ∀ other ∈ pieces, continuesPath typed true other = true := by
  fun_induction continuesPath typed start t with
  | case1 start => exact ⟨[], [], rfl, h, List.forall_mem_nil _⟩
  | case2 c rest ih =>
    rw [Bool.and_eq_true] at h
    obtain ⟨-, hpoint, hslash⟩ := segmentChar_ne (isSegmentChar_of_isSegmentStart h.1)
    obtain ⟨piece, pieces, hsplit, hpiece, hpieces⟩ := ih h.2
    refine ⟨c :: piece, pieces, ?_, ?_, hpieces⟩
    · rw [splitPath, if_neg (by simp [hpoint, hslash]), hsplit]
    · rw [continuesPath, h.1, hpiece]
      rfl
  | case3 rest ih =>
    rw [Bool.and_eq_true] at h
    obtain ⟨piece, pieces, hsplit, hpiece, hpieces⟩ := ih h.2
    refine ⟨':' :: ':' :: piece, pieces, ?_, ?_, hpieces⟩
    · rw [splitPath, splitPath, hsplit]
      rfl
    · rw [continuesPath, hpiece, Bool.and_true]
      exact h.1
  | case4 c rest hne hc ih =>
    obtain ⟨piece, pieces, hsplit, hpiece, hpieces⟩ := ih h
    refine ⟨[], piece :: pieces, ?_, rfl, List.forall_mem_cons.2 ⟨hpiece, hpieces⟩⟩
    rw [splitPath, if_pos hc, hsplit]
  | case5 c rest hne hc ih =>
    rw [Bool.and_eq_true] at h
    obtain ⟨hcolon, hpoint, hslash⟩ := segmentChar_ne h.1
    obtain ⟨piece, pieces, hsplit, hpiece, hpieces⟩ := ih h.2
    refine ⟨c :: piece, pieces, ?_, ?_, hpieces⟩
    · rw [splitPath, if_neg (by simp [hpoint, hslash]), hsplit]
    · rw [continuesPath, if_neg hc, h.1, hpiece]
      · rfl
      · rintro rest' rfl
        exact absurd rfl hcolon

lemma splitPath_of_isPath {t : Text} (h : isPath t = true) :
    ∃ piece pieces, splitPath t = piece :: pieces ∧ isPath piece = true ∧
      ∀ other ∈ pieces, continuesPath true true other = true := by
  rcases isPath_cases h with hpath | ⟨rest, rfl, hrest⟩
  · obtain ⟨piece, pieces, hsplit, hpiece, hpieces⟩ := splitPath_of_continuesPath hpath
    exact ⟨piece, pieces, hsplit, isPath_of_continuesPath hpiece, hpieces⟩
  · obtain ⟨piece, pieces, hsplit, hpiece, hpieces⟩ := splitPath_of_continuesPath hrest
    refine ⟨':' :: ':' :: piece, pieces, ?_, hpiece, hpieces⟩
    rw [splitPath, splitPath, hsplit]
    rfl

lemma continuesPath_join {parts : List Text} (hne : parts ≠ []) (h : ∀ t ∈ parts, continuesPath true true t = true) :
    continuesPath true true (Text.join "." parts) = true := by
  induction parts with
  | nil => exact absurd rfl hne
  | cons t rest ih =>
    obtain ⟨ht, hrest⟩ := List.forall_mem_cons.1 h
    cases rest with
    | nil => rwa [join_singleton]
    | cons u rest =>
      rw [join_cons_cons]
      exact (continuesPath_append ht (point_mem_separators _) _).trans (ih (List.cons_ne_nil _ _) hrest)

lemma isPath_join {t : Text} {parts : List Text} (ht : isPath t = true)
    (h : ∀ u ∈ parts, continuesPath true true u = true) : isPath (Text.join "." (t :: parts)) = true := by
  rcases isPath_cases ht with hpath | ⟨rest, rfl, hrest⟩
  · exact isPath_of_continuesPath (continuesPath_join (List.cons_ne_nil _ _) (List.forall_mem_cons.2 ⟨hpath, h⟩))
  · have hjoin : Text.join "." ((':' :: ':' :: rest) :: parts) = ':' :: ':' :: Text.join "." (rest :: parts) := by
      cases parts with
      | nil => rw [join_singleton, join_singleton]
      | cons u parts => rw [join_cons_cons, join_cons_cons]; rfl
    rw [hjoin]
    exact continuesPath_join (List.cons_ne_nil _ _) (List.forall_mem_cons.2 ⟨hrest, h⟩)

lemma isSymbolToken_path {t : Text} (h : isPath t = true) (hstart : startsNumber t = false) :
    isSymbolToken t = true := by
  rcases isPath_cases h with hpath | ⟨rest, rfl, hrest⟩
  · exact isSymbolToken_of_isPath (all_isAtomChar_of_mem_paths (continuesPath_iff.1 hpath)) hpath hstart
  · have hcolon : isAtomChar ':' = true := by decide
    have hatoms := all_isAtomChar_of_mem_paths (continuesPath_iff.1 hrest)
    have htext : isSymbolText (':' :: ':' :: rest) = true := by rw [isSymbolText, h, Bool.or_true]
    rw [isSymbolToken, List.all_cons, List.all_cons, hcolon, hatoms, htext]
    rfl

/-- An operator remains one when points are written for slashes. -/
lemma isSymbolToken_map {t : Text} (hop : isOperator t = true) (h : isSymbolToken t = true) :
    isSymbolToken (t.map fun c => if c = '/' then '.' else c) = true := by
  obtain ⟨-, htilde, hbackslash, -, hcolon⟩ := isSymbolToken_iff.1 h
  obtain ⟨hne, hchars⟩ := isOperator_iff.1 hop
  have hother {c d : Char} (hd : d ≠ '.') : (if c = '/' then '.' else c) = d → c = d := by
    split
    · exact fun heq => absurd heq.symm hd
    · exact id
  have hpointed : ∀ c ∈ t.map fun c => if c = '/' then '.' else c, operatorChars.contains c = true := by
    intro d hd
    obtain ⟨c, hc, rfl⟩ := List.mem_map.1 hd
    split
    · decide
    · exact hchars c hc
  have hoperator := isOperator_iff.2 ⟨by simpa using hne, hpointed⟩
  have hhead {d : Char} (hd : d ≠ '.') (heq : (t.map fun c => if c = '/' then '.' else c).head? = some d) :
      t.head? = some d := by
    rw [List.head?_map, Option.map_eq_some_iff] at heq
    obtain ⟨c, hc, heq⟩ := heq
    rw [hc, hother hd heq]
  refine isSymbolToken_iff.2 ⟨by rw [isSymbolText, hoperator, Bool.true_or], ?_, ?_, ?_, ?_⟩
  · intro hmem
    obtain ⟨c, hc, heq⟩ := List.mem_map.1 hmem
    rw [hother (by decide) heq] at hc
    exact htilde hc
  · exact fun heq => hbackslash (hhead (by decide) heq)
  · refine startsNumber_of_not_digits fun c hc => ?_
    rw [← Bool.not_eq_true]
    exact fun hdigit => (not_digit_of_mem hdigit).2.2 (List.contains_iff_mem.1 (hpointed c hc))
  · intro heq
    rcases hcolon (hhead (by decide) heq) with rfl | hcolons
    · exact .inl rfl
    · exact .inr (hcolons.map fun c => if c = '/' then '.' else c)

lemma isOperator_piece {t u : Text} (h : isOperator t = true) (hu : u ∈ splitPath t) (hne : u ≠ []) :
    isOperator u = true :=
  isOperator_iff.2 ⟨hne, fun c hc => (isOperator_iff.1 h).2 c (mem_of_mem_splitPath hu hc).1⟩

/-- The parts of a symbol that are written again and joined by points make a symbol, unless the first one begins like
a number. -/
theorem isSymbolToken_respelled {t u : Text} {us : List Text} (h : isSymbolToken t = true)
    (hsplit : splitPath t = u :: us) (hne : ∀ v ∈ u :: us, v ≠ []) (hstart : startsNumber (respelled u) = false) :
    isSymbolToken (Text.join "." ((u :: us).map respelled)) = true := by
  obtain ⟨htext, -⟩ := isSymbolToken_iff.1 h
  rw [isSymbolText, Bool.or_eq_true] at htext
  rcases htext with hop | hpath
  · have hsame : (u :: us).map respelled = u :: us := by
      refine (List.map_congr_left fun v hv => ?_).trans (List.map_id _)
      rw [← hsplit] at hv hne
      exact respelled_operator (isOperator_piece hop hv (hne v hv))
    rw [hsame, ← hsplit, join_splitPath]
    exact isSymbolToken_map hop h
  · obtain ⟨piece, pieces, hsplit', hpiece, hpieces⟩ := splitPath_of_isPath hpath
    obtain ⟨rfl, rfl⟩ := List.cons.inj (hsplit.symm.trans hsplit')
    have hrespelled := isPath_respelled hpiece
    rw [List.map_cons]
    refine isSymbolToken_path (isPath_join hrespelled ?_) ?_
    · intro v hv
      obtain ⟨w, hw, rfl⟩ := List.mem_map.1 hv
      exact continuesPath_respelled (hpieces w hw)
    · cases us with
      | nil => rwa [List.map_nil, join_singleton]
      | cons v us =>
        have hu : respelled u ≠ [] := by
          intro heq
          rw [heq] at hrespelled
          cases hrespelled
        rw [List.map_cons, join_cons_cons]
        exact (startsNumber_append hu (by decide) _).trans hstart

/-- Only the name of a literal is written again as one. -/
lemma respelled_not_literal {u : Text} (h : u ∉ literalNames) : respelled u ∉ literalNames := by
  intro hmem
  have hliterals : ∀ name ∈ literalNames, escapeSymbol name = name ∧ '_' ∉ name := by decide
  obtain ⟨hescape, hunderscore⟩ := hliterals _ hmem
  rw [escapeSymbol_respelled] at hescape
  rw [← hescape] at hunderscore hmem
  rw [escapeSymbol_of_not_mem hunderscore] at hmem
  exact h hmem

end Bilisp
