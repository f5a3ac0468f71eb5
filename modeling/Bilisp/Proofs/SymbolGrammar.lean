import Bilisp.Proofs.HostNames
import Mathlib.Computability.Language

/-!
# The grammar of symbols and keywords

The spellings of symbols and the names of keywords are regular languages over segments (`isSymbolText_iff`,
`isKeywordName_iff`). A text is read as one symbol exactly if it is such a spelling, does not begin like something
else and holds no `~`, which ends an atom (`symbol_grammar`). So the symbol of a name that is read as a symbol is
read as one too, except where a sign precedes a digit that is no decimal digit (`unescapeSymbol_read_iff`).
-/

namespace Bilisp

open Computability

/-! ## Spellings as languages -/

/-- The texts of operator characters only. -/
def operators : Language Char := {t | isOperator t = true}

/-- The texts that are one segment. -/
def segments : Language Char := {t | isSegment t = true}

/-- The separators of a path as texts of their own. -/
def separatorTexts (typed : Bool) : Language Char := {t | t ∈ separators typed}

/-- A further segment of a path, behind a separator. -/
def furtherSegments (typed : Bool) : Language Char := separatorTexts typed * segments

/-- Segments with separators between them. -/
def paths (typed : Bool) : Language Char := segments * (furtherSegments typed)∗

/-- The spellings of symbols: operators, and typed paths of which the first segment may follow `::`. -/
def symbolTexts : Language Char := operators + (1 + {"::".toList}) * paths true

/-- The names of keywords: paths without `::`, and operators. -/
def keywordNames : Language Char := paths false + operators

lemma append_mem_furtherSegments {typed : Bool} {separator u : Text} (hseparator : separator ∈ separators typed)
    (hu : isSegment u = true) : separator ++ u ∈ furtherSegments typed :=
  Language.append_mem_mul (show separator ∈ separatorTexts typed from hseparator) hu

lemma append_mem_kstar {l : Language Char} {s t : Text} (hs : s ∈ l) (ht : t ∈ l∗) : s ++ t ∈ l∗ := by
  rw [← Language.one_add_self_mul_kstar_eq_kstar, Language.mem_add]
  exact .inr (Language.append_mem_mul hs ht)

/-- What goes on as a path ends its segment and goes on with further ones. -/
lemma exists_of_continuesPath {typed start : Bool} {t : Text} (h : continuesPath typed start t = true) :
    ∃ u v, t = u ++ v ∧ (if start then isSegment u = true else u.all isSegmentChar = true) ∧
      v ∈ (furtherSegments typed)∗ := by
  fun_induction continuesPath typed start t with
  | case1 start =>
    obtain rfl : start = false := by simpa using h
    exact ⟨[], [], rfl, rfl, Language.nil_mem_kstar _⟩
  | case2 c rest ih =>
    rw [Bool.and_eq_true] at h
    obtain ⟨u, v, rfl, hu, hv⟩ := ih h.2
    refine ⟨c :: u, v, rfl, ?_, hv⟩
    rw [if_pos rfl, isSegment, h.1, Bool.true_and]
    exact hu
  | case3 rest ih =>
    rw [Bool.and_eq_true] at h
    obtain ⟨u, v, rfl, hu, hv⟩ := ih h.2
    have hmem : [':', ':'] ∈ separators typed := mem_separators.2 (.inr (.inr ⟨rfl, h.1⟩))
    exact ⟨[], [':', ':'] ++ u ++ v, rfl, rfl, append_mem_kstar (append_mem_furtherSegments hmem hu) hv⟩
  | case4 c rest hne hc ih =>
    obtain ⟨u, v, rfl, hu, hv⟩ := ih h
    have hmem : [c] ∈ separators typed := by
      rw [mem_separators, List.cons.injEq, List.cons.injEq]
      simpa using hc
    exact ⟨[], [c] ++ u ++ v, rfl, rfl, append_mem_kstar (append_mem_furtherSegments hmem hu) hv⟩
  | case5 c rest hne hc ih =>
    rw [Bool.and_eq_true] at h
    obtain ⟨u, v, rfl, hu, hv⟩ := ih h.2
    refine ⟨c :: u, v, rfl, ?_, hv⟩
    rw [if_neg Bool.false_ne_true] at hu ⊢
    rw [List.all_cons, h.1, hu]
    rfl

lemma continuesPath_flatten {typed : Bool} {u : Text} (hu : isSegment u = true) {parts : List Text}
    (hparts : ∀ part ∈ parts, part ∈ furtherSegments typed) :
    continuesPath typed true (u ++ parts.flatten) = true := by
  induction parts generalizing u with
  | nil =>
    rw [List.flatten_nil, List.append_nil]
    exact continuesPath_segment typed hu
  | cons part parts ih =>
    rw [List.forall_mem_cons] at hparts
    obtain ⟨separator, hseparator, w, hw, rfl⟩ := Language.mem_mul.1 hparts.1
    rw [List.flatten_cons, List.append_assoc, continuesPath_append (continuesPath_segment typed hu) hseparator]
    exact ih hw hparts.2

lemma continuesPath_iff {typed : Bool} {t : Text} : continuesPath typed true t = true ↔ t ∈ paths typed := by
  constructor
  · intro h
    obtain ⟨u, v, rfl, hu, hv⟩ := exists_of_continuesPath h
    exact Language.append_mem_mul hu hv
  · intro h
    obtain ⟨u, hu, v, hv, rfl⟩ := Language.mem_mul.1 h
    obtain ⟨parts, rfl, hparts⟩ := Language.mem_kstar.1 hv
    exact continuesPath_flatten hu hparts

lemma head_of_mem_paths {typed : Bool} {t : Text} (h : t ∈ paths typed) :
    ∃ c rest, t = c :: rest ∧ isSegmentStart c = true := by
  rw [← continuesPath_iff] at h
  cases t with
  | nil => cases h
  | cons c rest =>
    rw [continuesPath, Bool.and_eq_true] at h
    exact ⟨c, rest, rfl, h.1⟩

lemma isPath_eq_continuesPath {c : Char} (h : isSegmentStart c = true) (rest : Text) :
    isPath (c :: rest) = continuesPath true true (c :: rest) := by
  rw [isPath]
  intro behind heq
  obtain ⟨rfl, -⟩ := List.cons.inj heq
  cases h

/-- Symbols are spelled by the regular expression of operators and typed paths. -/
theorem isSymbolText_iff {t : Text} : isSymbolText t = true ↔ t ∈ symbolTexts := by
  rw [isSymbolText, Bool.or_eq_true, symbolTexts, Language.mem_add]
  refine or_congr Iff.rfl ?_
  rw [add_mul, one_mul, Language.mem_add, Language.mem_mul]
  constructor
  · intro h
    unfold isPath at h
    split at h
    next rest => exact .inr ⟨_, rfl, rest, continuesPath_iff.1 h, rfl⟩
    next => exact .inl (continuesPath_iff.1 h)
  · rintro (h | ⟨_, rfl, rest, hrest, rfl⟩)
    · obtain ⟨c, rest, rfl, hc⟩ := head_of_mem_paths h
      rw [isPath_eq_continuesPath hc]
      exact continuesPath_iff.2 h
    · exact continuesPath_iff.2 hrest

/-- Keywords are named by the regular expression of paths without `::` and operators. -/
theorem isKeywordName_iff {k : Text} : isKeywordName k = true ↔ k ∈ keywordNames := by
  rw [isKeywordName, Bool.or_eq_true, continuesPath_iff, keywordNames, Language.mem_add]
  exact Iff.rfl

/-! ## Spellings in front of the scanner -/

lemma all_isAtomChar_of_isOperator {t : Text} (h : isOperator t = true) (htilde : '~' ∉ t) :
    t.all isAtomChar = true := by
  have hchars : (operatorChars.all fun c => c = '~' || isAtomChar c) = true := by decide
  rw [List.all_eq_true]
  intro c hc
  have hchar := List.all_eq_true.1 hchars c (List.contains_iff_mem.1 ((isOperator_iff.1 h).2 c hc))
  rw [Bool.or_eq_true, decide_eq_true_eq] at hchar
  apply hchar.resolve_left
  rintro rfl
  exact htilde hc

lemma all_isAtomChar_of_mem_furtherSegments {typed : Bool} {t : Text} (h : t ∈ furtherSegments typed) :
    t.all isAtomChar = true := by
  have hseparators : ∀ separator ∈ separators true, separator.all isAtomChar = true := by decide
  obtain ⟨separator, hseparator, u, hu, rfl⟩ := Language.mem_mul.1 h
  have hmem : separator ∈ separators true := by
    rw [mem_separators]
    exact (mem_separators.1 hseparator).imp_right (Or.imp_right fun h => ⟨h.1, rfl⟩)
  rw [List.all_append, hseparators separator hmem, all_isAtomChar_segment hu]
  rfl

lemma all_isAtomChar_of_mem_paths {typed : Bool} {t : Text} (h : t ∈ paths typed) : t.all isAtomChar = true := by
  obtain ⟨u, hu, v, hv, rfl⟩ := Language.mem_mul.1 h
  obtain ⟨parts, rfl, hparts⟩ := Language.mem_kstar.1 hv
  rw [List.all_append, all_isAtomChar_segment hu, List.all_flatten, List.all_eq_true.2]
  · rfl
  · exact fun part hpart => all_isAtomChar_of_mem_furtherSegments (hparts part hpart)

lemma all_isAtomChar_of_mem_symbolTexts {t : Text} (h : t ∈ symbolTexts) (htilde : '~' ∉ t) :
    t.all isAtomChar = true := by
  have hcolons : ("::".toList).all isAtomChar = true := by decide
  rcases h with hoperator | hpath
  · exact all_isAtomChar_of_isOperator hoperator htilde
  · obtain ⟨lead, hlead, rest, hrest, rfl⟩ := Language.mem_mul.1 hpath
    rw [List.all_append, all_isAtomChar_of_mem_paths hrest, Bool.and_true]
    rcases hlead with rfl | rfl
    · rfl
    · exact hcolons

lemma all_isAtomChar_of_mem_keywordNames {k : Text} (h : k ∈ keywordNames) (htilde : '~' ∉ k) :
    k.all isAtomChar = true := by
  rcases h with hpath | hoperator
  · exact all_isAtomChar_of_mem_paths hpath
  · exact all_isAtomChar_of_isOperator hoperator htilde

lemma tilde_not_mem_of_all_isAtomChar {t : Text} (h : t.all isAtomChar = true) : '~' ∉ t := by
  intro hmem
  exact absurd (List.all_eq_true.1 h '~' hmem) (by decide)

/-- Of the characters that begin something else, a spelling begins with a tilde, a backslash or a colon only. -/
lemma mark_of_mem_symbolTexts {c : Char} {rest : Text} (h : c :: rest ∈ symbolTexts) (hmark : c ∈ markChars) :
    c = '~' ∨ c = '\\' ∨ c = ':' := by
  have hoperators : (markChars.all fun c => !operatorChars.contains c || ['~', '\\', ':'].contains c) = true := by
    decide
  have hstarts : (markChars.all fun c => !isSegmentStart c) = true := by decide
  rcases h with hoperator | hpath
  · have hchar := (isOperator_iff.1 hoperator).2 c List.mem_cons_self
    have hlead := List.all_eq_true.1 hoperators c hmark
    rw [hchar] at hlead
    simpa using hlead
  · obtain ⟨lead, hlead, behind, hbehind, heq⟩ := Language.mem_mul.1 hpath
    rcases hlead with rfl | rfl
    · obtain ⟨d, rest', rfl, hd⟩ := head_of_mem_paths hbehind
      obtain ⟨rfl, -⟩ := List.cons.inj heq
      have hnot := List.all_eq_true.1 hstarts d hmark
      rw [hd] at hnot
      cases hnot
    · exact .inr (.inr (List.cons.inj heq).1.symm)

/-! ## Symbols and keywords as tokens -/

lemma colon_prefix_iff (rest : Text) :
    (':' :: rest = ":".toList ∨ "::".toList <+: ':' :: rest) ↔ rest.head?.all (· = ':') = true := by
  cases rest with
  | nil => exact iff_of_true (.inl rfl) rfl
  | cons c rest =>
    change (':' :: c :: rest = [':'] ∨ [':', ':'] <+: ':' :: c :: rest) ↔ decide (c = ':') = true
    simp only [List.cons_prefix_cons, List.nil_prefix, List.cons.injEq, reduceCtorEq, true_and, and_true, false_or,
      decide_eq_true_eq]
    exact eq_comm

/-- A spelling of a symbol is read as a symbol unless something else begins there or a tilde ends it. -/
lemma isSymbolToken_iff {t : Text} :
    isSymbolToken t = true ↔ isSymbolText t = true ∧ '~' ∉ t ∧ t.head? ≠ some '\\' ∧ startsNumber t = false ∧
      (t.head? = some ':' → t = ":".toList ∨ "::".toList <+: t) := by
  cases t with
  | nil => exact iff_of_false (by decide) fun h => absurd h.1 (by decide)
  | cons c rest =>
    by_cases hcolon : c = ':'
    · subst hcolon
      have hdigit : isDigit ':' = false := by decide
      have hnumber : startsNumber (':' :: rest) = false := by
        rw [startsNumber, hdigit]
        rfl
      change ((':' :: rest).all isAtomChar && isSymbolText (':' :: rest) && rest.head?.all (· = ':')) = true ↔ _
      rw [Bool.and_eq_true, Bool.and_eq_true, ← colon_prefix_iff]
      constructor
      · rintro ⟨⟨hatoms, htext⟩, hlead⟩
        exact ⟨htext, tilde_not_mem_of_all_isAtomChar hatoms, by simp, hnumber, fun _ => hlead⟩
      · rintro ⟨htext, htilde, -, -, hlead⟩
        exact ⟨⟨all_isAtomChar_of_mem_symbolTexts (isSymbolText_iff.1 htext) htilde, htext⟩, hlead rfl⟩
    · have hhead : (c :: rest).head? ≠ some ':' := by simpa using hcolon
      rw [isSymbolToken]
      · simp only [Bool.and_eq_true, Bool.not_eq_true']
        constructor
        · rintro ⟨⟨hatoms, htext⟩, hmark, hnumber⟩
          refine ⟨htext, tilde_not_mem_of_all_isAtomChar hatoms, ?_, hnumber, fun heq => absurd heq hhead⟩
          rintro ⟨⟩
          exact absurd hmark (by decide)
        · rintro ⟨htext, htilde, hbackslash, hnumber, -⟩
          have htexts := isSymbolText_iff.1 htext
          refine ⟨⟨all_isAtomChar_of_mem_symbolTexts htexts htilde, htext⟩, ?_, hnumber⟩
          rw [← Bool.not_eq_true, List.contains_iff_mem]
          intro hmark
          rcases mark_of_mem_symbolTexts htexts hmark with rfl | rfl | rfl
          · exact htilde List.mem_cons_self
          · exact hbackslash rfl
          · exact hhead rfl
      · exact hcolon

/-- A name of a keyword is read as one behind a colon unless it makes two colons or a tilde ends it. -/
lemma isKeywordToken_iff {k : Text} :
    isKeywordToken k = true ↔ k ≠ [] ∧ k.head? ≠ some ':' ∧ '~' ∉ k ∧ isKeywordName k = true := by
  have hhead : k.head?.any (· ≠ ':') = true ↔ k ≠ [] ∧ k.head? ≠ some ':' := by
    cases k with
    | nil => simp
    | cons c rest => simp
  rw [isKeywordToken, Bool.and_eq_true, Bool.and_eq_true, hhead]
  constructor
  · rintro ⟨⟨hatoms, hname⟩, hne, hcolon⟩
    exact ⟨hne, hcolon, tilde_not_mem_of_all_isAtomChar hatoms, hname⟩
  · rintro ⟨hne, hcolon, htilde, hname⟩
    exact ⟨⟨all_isAtomChar_of_mem_keywordNames (isKeywordName_iff.1 hname) htilde, hname⟩, hne, hcolon⟩

/-- A text is read as one symbol, which is its own name, exactly if it is spelled as a symbol, holds no tilde and
does not begin like a character, a number or a keyword. It is read behind a colon as the name of one keyword exactly
if it is a name of keywords that holds no tilde and does not begin with another colon. Both spellings are regular
languages. -/
theorem symbol_grammar :
    (∀ t : Text, lexemes? t = some [.symbol t] ↔
      isSymbolText t = true ∧ '~' ∉ t ∧ t.head? ≠ some '\\' ∧ startsNumber t = false ∧
        (t.head? = some ':' → t = ":".toList ∨ "::".toList <+: t)) ∧
    (∀ k : Text, lexemes? (':' :: k) = some [.keyword k] ↔
      k ≠ [] ∧ k.head? ≠ some ':' ∧ '~' ∉ k ∧ isKeywordName k = true) ∧
    (∀ t, isSymbolText t = true ↔ t ∈ symbolTexts) ∧ (∀ k, isKeywordName k = true ↔ k ∈ keywordNames) := by
  refine ⟨fun t => ?_, fun k => ?_, fun t => isSymbolText_iff, fun k => isKeywordName_iff⟩
  · rw [lexemes?_eq_symbol_iff, isSymbolToken_iff]
  · rw [lexemes?_eq_keyword_iff, isKeywordToken_iff]

/-! ## Symbols of names that are read as symbols -/

/-- The symbol of a name that is read as one symbol is read as one symbol too, exactly if it is the name itself or
the name does not begin with what stands for a sign and a digit that is no decimal digit. -/
theorem unescapeSymbol_read_iff {host : Text} (hread : lexemes? host = some [.symbol host]) :
    lexemes? (unescapeSymbol host) = some [.symbol (unescapeSymbol host)] ↔
      unescapeSymbol host = host ∨ ¬SignsDigit host := by
  by_cases heq : unescapeSymbol host = host
  · rw [heq]
    exact iff_of_true hread (.inl rfl)
  · have hhost : startsNumber host = false := (isSymbolToken_iff.1 (lexemes?_eq_symbol_iff.1 hread)).2.2.2.1
    rw [lexemes?_eq_symbol_iff, or_iff_right heq]
    constructor
    · intro hsymbol hsigns
      have hnumber := (isSymbolToken_iff.1 hsymbol).2.2.2.1
      rw [startsNumber_of_signsDigit hsigns heq] at hnumber
      cases hnumber
    · intro hsigns
      have hsegment : isSegment (unescapeSymbol host) = true := by
        have hspells := (unescapeSymbol_of_ne heq).2
        simp only [spells, Bool.and_eq_true] at hspells
        exact hspells.1.1
      apply isSymbolToken_of_isPath (all_isAtomChar_segment hsegment) (continuesPath_segment true hsegment)
      rw [← Bool.not_eq_true]
      exact fun hnumber => hsigns (signsDigit_of_startsNumber hhost hnumber)

theorem unescapeSymbol_read_iff_marks :
    lexemes? "_PLUS_a²_".toList = some [.symbol "_PLUS_a²_".toList] ∧
      lexemes? (unescapeSymbol "_PLUS_a²_") = some [.symbol (unescapeSymbol "_PLUS_a²_")] := by
  have hread : lexemes? "_PLUS_a²_".toList = some [.symbol "_PLUS_a²_".toList] :=
    lexemes?_eq_symbol_iff.2 (by decide)
  have hsigns : ¬SignsDigit "_PLUS_a²_".toList := by
    rintro ⟨d, rest, htext | htext, hdigit, -⟩
    · obtain ⟨-, htext⟩ := List.cons.inj htext
      obtain ⟨rfl, -⟩ := List.cons.inj htext
      exact absurd hdigit (by decide)
    · change "_PLUS_".toList ++ "a²_".toList = "_PLUS_".toList ++ d :: rest at htext
      obtain ⟨rfl, -⟩ := List.cons.inj (List.append_cancel_left htext)
      exact absurd hdigit (by decide)
  exact ⟨hread, (unescapeSymbol_read_iff hread).2 (.inr hsigns)⟩

/-- A superscript behind the underscore is no decimal digit, so the name is decoded. The scanner takes it for a
digit, so it reads what the name is decoded to as a number, which is malformed. -/
theorem unescapeSymbol_unread :
    lexemes? "_²".toList = some [.symbol "_²".toList] ∧ unescapeSymbol "_²" = "-²".toList ∧
      (tokens "-²").ending = .error (.located (.invalidToken "-²" "malformed number -²") ⟨⟨1, 1, 0⟩, ⟨1, 3, 2⟩⟩) ∧
      lexemes? (unescapeSymbol "_²") ≠ some [.symbol (unescapeSymbol "_²")] := by
  have hdecoded : decodeHost "_²" = "-²".toList := by
    have hcapital : ∀ c ∈ ['²'].head?, isCapital c = false := by
      rintro _ ⟨⟩
      decide
    change decodeHost ['_', '²'] = ['-', '²']
    rw [decodeHost_hyphen hcapital, decodeHost_of_ne (by decide), decodeHost]
  have hsymbol : unescapeSymbol "_²" = "-²".toList := unescapeSymbol_of_spells (by decide) hdecoded (by decide)
  have hending : (tokens "-²").ending =
      .error (.located (.invalidToken "-²" "malformed number -²") ⟨⟨1, 1, 0⟩, ⟨1, 3, 2⟩⟩) := by
    rw [tokens, tokensFrom_eq]
    rfl
  refine ⟨lexemes?_eq_symbol_iff.2 (by decide), hsymbol, hending, ?_⟩
  rw [hsymbol, ne_eq, lexemes?_eq_symbol_iff]
  decide

end Bilisp
