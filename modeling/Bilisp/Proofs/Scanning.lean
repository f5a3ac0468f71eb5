import Bilisp.Proofs.CharClasses
import Bilisp.Token.Stream

/-!
# The first token of a text

`Scans t l raw rest` says that `t` begins with a token, which takes `raw` and leaves `rest`. The tokens of a
text are those tokens in turn, and a text is read as the single lexeme `l` when `l` takes all of it. Symbols
and keywords are characterised by their spelling alone (`scans_symbol_iff`, `scans_keyword_iff`), so they are
read in the same way in front of everything that ends an atom.
-/

namespace Bilisp

/-- The text begins with a token, without anything in front of it. -/
def Scans (t : Text) (l : Lexeme) (raw rest : Text) : Prop :=
  ∃ c tail, t = c :: tail ∧ isSeparator c = false ∧ c ≠ ';' ∧ scanToken c tail = .token l raw rest

/-- The lexemes of a text, if all of it can be read. -/
def lexemes? (t : Text) : Option (List Lexeme) :=
  match (tokens t).ending with
  | .ok _ => some ((tokens t).items.map Token.lexeme)
  | .error _ => none

/-- The text does not go on with an atom. -/
def EndsAtom (t : Text) : Prop := ∀ c ∈ t.head?, isAtomChar c = false

/-! ## Tokens in turn -/

/-- The tokens of a text with nothing to ignore in front, which begins at a position. -/
def tokensAt (begin : Position) : Text → Tokens
  | [] => .done begin
  | c :: rest =>
    match scanToken c rest with
    | .token lexeme raw behind => .next ⟨lexeme, raw, begin.span raw⟩ (tokensFrom (begin.after raw) behind)
    | .rejected lead flagged cause => .failed (.located cause ((begin.after lead).span flagged))
    | .pastEnd => .failed .pastEnd

lemma tokensFrom_eq (p : Position) (t : Text) :
    tokensFrom p t = tokensAt (p.after (splitIgnored false t).1) (splitIgnored false t).2 := by
  rw [tokensFrom]
  split
  next heq => rw [heq, tokensAt]
  next c rest heq =>
    split
    next hscan => simp only [heq, tokensAt, hscan, Position.span]
    next hscan => simp only [heq, tokensAt, hscan]
    next hscan => simp only [heq, tokensAt, hscan]

@[simp] lemma tokensFrom_nil (p : Position) : tokensFrom p [] = .done p := by
  rw [tokensFrom_eq]
  rfl

lemma splitIgnored_front {inComment : Bool} {t rest : Text} {c : Char}
    (h : (splitIgnored inComment t).2 = c :: rest) : isSeparator c = false ∧ c ≠ ';' := by
  induction t generalizing inComment with
  | nil => simp [splitIgnored] at h
  | cons d t ih =>
    cases inComment with
    | true => exact ih h
    | false =>
      rw [splitIgnored] at h
      split at h
      · exact ih h
      · split at h
        · exact ih h
        · next hsep hd =>
          simp only [List.cons.injEq] at h
          obtain ⟨rfl, rfl⟩ := h
          exact ⟨by simpa using hsep, hd⟩

lemma tokensFrom_of_front {c : Char} (hsep : isSeparator c = false) (hc : c ≠ ';') (t : Text) (p : Position) :
    tokensFrom p (c :: t) = tokensAt p (c :: t) := by
  have hsplit : splitIgnored false (c :: t) = ([], c :: t) := by simp [splitIgnored, hsep, hc]
  rw [tokensFrom_eq, hsplit]
  rfl

lemma tokensFrom_of_scans {t raw rest : Text} {l : Lexeme} (h : Scans t l raw rest) (p : Position) :
    tokensFrom p t = .next ⟨l, raw, p.span raw⟩ (tokensFrom (p.after raw) rest) := by
  obtain ⟨c, tail, rfl, hsep, hc, hscan⟩ := h
  rw [tokensFrom_of_front hsep hc, tokensAt, hscan]

lemma tokensFrom_separator {c : Char} (h : isSeparator c = true) (t : Text) (p : Position) :
    tokensFrom p (c :: t) = tokensFrom (p.next c) t := by
  have hsplit : splitIgnored false (c :: t) =
      (c :: (splitIgnored false t).1, (splitIgnored false t).2) := by
    simp [splitIgnored, h]
  rw [tokensFrom_eq, tokensFrom_eq, hsplit]
  rfl

/-- Every token of a text is the first token of some text behind it. -/
lemma scans_of_mem_tokensFrom {t : Text} {p : Position} {token : Token}
    (h : token ∈ (tokensFrom p t).items) : ∃ t' rest, Scans t' token.lexeme token.raw rest := by
  fun_induction tokensFrom p t with
  | case1 p t _ hsplit => simp [Feed.items] at h
  | case2 p t _ c rest hsplit lexeme raw behind hscan _ _ ih =>
    simp only [Feed.items, List.mem_cons] at h
    rcases h with rfl | h
    · refine ⟨c :: rest, behind, c, rest, rfl, ?_⟩
      obtain ⟨hsep, hc⟩ := splitIgnored_front hsplit
      exact ⟨hsep, hc, hscan⟩
    · exact ih h
  | case3 p t _ c rest hsplit lead flagged cause => simp [Feed.items] at h
  | case4 p t _ c rest hsplit => simp [Feed.items] at h

/-! ## Symbols and keywords -/

/-- Whether a text begins like a number: with a digit, or with a sign and a digit. -/
def startsNumber : Text → Bool
  | [] => false
  | c :: rest => isDigit c || ((c = '+' || c = '-') && rest.head?.any isDigit)

/-- Whether a text is read as a symbol. A colon in front has to stand alone or to be doubled. -/
def isSymbolToken (t : Text) : Bool :=
  t.all isAtomChar && isSymbolText t &&
    match t with
    | [] => false
    | ':' :: rest => rest.head?.all (· = ':')
    | c :: _ => !markChars.contains c && !startsNumber t

/-- Whether a text is read as a keyword when a colon precedes it. -/
def isKeywordToken (t : Text) : Bool :=
  t.all isAtomChar && isKeywordName t && t.head?.any (· ≠ ':')

lemma atomPart_append {t rest : Text} (ht : t.all isAtomChar = true) (hrest : EndsAtom rest) :
    atomPart (t ++ rest) = t ∧ behindAtom (t ++ rest) = rest := by
  induction t with
  | nil =>
    cases rest with
    | nil => exact ⟨rfl, rfl⟩
    | cons c rest =>
      have hc := hrest c rfl
      simp [atomPart, behindAtom, hc]
  | cons c t ih =>
    simp only [List.all_cons, Bool.and_eq_true] at ht
    simpa [atomPart, behindAtom, ht.1] using ih ht.2

lemma all_atomPart (t : Text) : (atomPart t).all isAtomChar = true := List.all_takeWhile

lemma endsAtom_behindAtom (t : Text) : EndsAtom (behindAtom t) := by
  intro c hc
  have h := List.head?_dropWhile_not isAtomChar t
  simp only [behindAtom] at hc
  rw [Option.mem_def] at hc
  rw [hc] at h
  simpa using h

lemma any_isDigit_head_atomPart (t : Text) : (atomPart t).head?.any isDigit = t.head?.any isDigit := by
  cases t with
  | nil => rfl
  | cons c t =>
    cases hc : isAtomChar c with
    | true => simp [atomPart, hc]
    | false =>
      have hdigit : isDigit c = false := by
        cases hd : isDigit c with
        | false => rfl
        | true => simp [isAtomChar_of_isDigit hd] at hc
      simp [atomPart, hc, hdigit]

lemma scanToken_of_not_mark {c : Char} (h : c ∉ markChars) (rest : Text) :
    scanToken c rest =
      if startsNumber (c :: rest) then scanNumber [c] rest else scanSymbol c rest := by
  unfold scanToken
  split
  case h_14 => rfl
  all_goals exact absurd (by decide) h

/-- What the spelling of a token and the text behind it say about its lexeme, for the lexemes that take as
much of the text as belongs to an atom. -/
def Lexeme.SpelledAs (raw rest : Text) : Lexeme → Prop
  | .symbol name => name = raw ∧ isSymbolToken raw = true ∧ EndsAtom rest
  | .keyword name => raw = ':' :: name ∧ isKeywordToken name = true ∧ EndsAtom rest
  | .number value => readNumber raw = .ok value ∧ EndsAtom rest
  | _ => True

lemma scanNumber_spelled {lead t raw rest : Text} {l : Lexeme}
    (h : scanNumber lead t = .token l raw rest) : l.SpelledAs raw rest := by
  simp only [scanNumber] at h
  split at h <;> simp only [Scan.invalid, Scan.token.injEq, reduceCtorEq] at h
  next value hread =>
    obtain ⟨rfl, rfl, rfl⟩ := h
    exact ⟨hread, endsAtom_behindAtom t⟩

lemma scanSymbol_inv {c : Char} {t raw rest : Text} {l : Lexeme}
    (h : scanSymbol c t = .token l raw rest) :
    l = .symbol raw ∧ raw = c :: atomPart t ∧ rest = behindAtom t ∧ isSymbolText raw = true := by
  simp only [scanSymbol] at h
  split at h <;> simp only [Scan.invalid, Scan.token.injEq, reduceCtorEq] at h
  next hs =>
    obtain ⟨rfl, rfl, rfl⟩ := h
    exact ⟨rfl, rfl, rfl, hs⟩

lemma scanColon_cases (t : Text) :
    (((atomPart t).head?.all (· = ':') = true ∧ scanColon t = scanSymbol ':' t) ∨
      ((atomPart t).head?.any (· ≠ ':') = true ∧ scanColon t =
        if isKeywordName (atomPart t) then
          .token (.keyword (atomPart t)) (':' :: atomPart t) (behindAtom t)
        else .invalid (':' :: atomPart t) [])) := by
  rw [scanColon]
  split
  next h => exact .inl ⟨by simp [h], rfl⟩
  next h => exact .inl ⟨by simp [h], rfl⟩
  next hnil hcolon =>
    refine .inr ⟨?_, rfl⟩
    cases hpart : atomPart t with
    | nil => exact absurd hpart hnil
    | cons c part =>
      simp only [List.head?_cons, Option.any_some, ne_eq, decide_not, Bool.not_eq_true',
        decide_eq_false_iff_not]
      rintro rfl
      exact hcolon part hpart

lemma scanColon_spelled {t raw rest : Text} {l : Lexeme} (h : scanColon t = .token l raw rest) :
    l.SpelledAs raw rest := by
  rcases scanColon_cases t with ⟨hhead, hscan⟩ | ⟨hhead, hscan⟩
  · rw [hscan] at h
    obtain ⟨rfl, rfl, rfl, htext⟩ := scanSymbol_inv h
    have hatom : isAtomChar ':' = true := by decide
    refine ⟨rfl, ?_, endsAtom_behindAtom t⟩
    simp only [isSymbolToken, htext, List.all_cons, all_atomPart, hhead, hatom, Bool.and_true]
  · rw [hscan] at h
    split at h <;> simp only [Scan.invalid, Scan.token.injEq, reduceCtorEq] at h
    next hname =>
      obtain ⟨rfl, rfl, rfl⟩ := h
      refine ⟨rfl, ?_, endsAtom_behindAtom t⟩
      simp only [isKeywordToken, all_atomPart, hname, hhead, Bool.and_true]

/-- A symbol, keyword or number is spelled as its lexeme says, and what is left of an atom does not go on
with it. -/
lemma scanToken_spelled {c : Char} {t raw rest : Text} {l : Lexeme} (hsep : isSeparator c = false)
    (hsemi : c ≠ ';') (h : scanToken c t = .token l raw rest) : l.SpelledAs raw rest := by
  by_cases hmark : c ∈ markChars
  · unfold scanToken at h
    split at h
    case h_9 => split at h <;> simp only [Scan.token.injEq] at h <;> rw [← h.1] <;> trivial
    case h_10 =>
      unfold scanHash at h
      split at h
      · simp only [Scan.token.injEq] at h
        rw [← h.1]
        trivial
      · exact scanNumber_spelled h
      · simp [Scan.invalid] at h
    case h_11 =>
      simp only [scanStringToken] at h
      split at h <;> simp only [Scan.token.injEq, reduceCtorEq] at h
      rw [← h.1]
      trivial
    case h_12 =>
      cases t with
      | nil => simp [scanCharacter, Scan.invalid] at h
      | cons d t =>
        simp only [scanCharacter] at h
        split at h <;> simp only [Scan.invalid, Scan.token.injEq, reduceCtorEq] at h
        rw [← h.1]
        trivial
    case h_13 => exact scanColon_spelled h
    case h_14 =>
      simp only [markChars, List.mem_cons, List.not_mem_nil, or_false] at hmark
      tauto
    all_goals
      simp only [Scan.token.injEq] at h
      rw [← h.1]
      trivial
  · rw [scanToken_of_not_mark hmark] at h
    split at h
    next hnum => exact scanNumber_spelled h
    next hnum =>
      obtain ⟨rfl, rfl, rfl, htext⟩ := scanSymbol_inv h
      have hcolon : c ≠ ':' := by
        rintro rfl
        exact hmark (by decide)
      have hstart : startsNumber (c :: atomPart t) = false := by
        simpa only [startsNumber, any_isDigit_head_atomPart, Bool.not_eq_true] using hnum
      have hatom := isAtomChar_of_not_mark hsep hsemi hmark
      refine ⟨rfl, ?_, endsAtom_behindAtom t⟩
      simp only [isSymbolToken, htext, List.all_cons, all_atomPart, hatom, Bool.and_true, Bool.true_and]
      simp [hmark, hstart]

/-- A text begins with a symbol when what it takes is spelled as a symbol and what it leaves ends an atom. -/
theorem scans_symbol_iff {t n raw rest : Text} :
    Scans t (.symbol n) raw rest ↔
      n = raw ∧ t = raw ++ rest ∧ isSymbolToken raw = true ∧ EndsAtom rest := by
  constructor
  · rintro ⟨c, tail, rfl, hsep, hsemi, hscan⟩
    obtain ⟨rfl, htoken, hrest⟩ := scanToken_spelled hsep hsemi hscan
    exact ⟨rfl, (scanToken_split hscan).1.symm, htoken, hrest⟩
  · rintro ⟨rfl, rfl, htoken, hrest⟩
    cases n with
    | nil => simp [isSymbolToken] at htoken
    | cons c tail =>
      simp only [isSymbolToken, List.all_cons, Bool.and_eq_true] at htoken
      obtain ⟨⟨⟨hatom, htail⟩, htext⟩, hstart⟩ := htoken
      obtain ⟨hsep, hsemi⟩ := not_separator_of_isAtomChar hatom
      obtain ⟨hpart, hbehind⟩ := atomPart_append htail hrest
      have hsymbol : scanSymbol c (tail ++ rest) = .token (.symbol (c :: tail)) (c :: tail) rest := by
        simp only [scanSymbol, hpart, hbehind, htext, if_true]
      refine ⟨c, tail ++ rest, rfl, hsep, hsemi, ?_⟩
      by_cases hcolon : c = ':'
      · subst hcolon
        change scanColon (tail ++ rest) = _
        rcases scanColon_cases (tail ++ rest) with ⟨hhead, hscan⟩ | ⟨hhead, hscan⟩
        · rw [hscan, hsymbol]
        · rw [hpart] at hhead
          cases tail with
          | nil => simp at hhead
          | cons d tail => simp_all
      · have hplain : c ∉ markChars ∧ startsNumber (c :: tail) = false := by
          split at hstart
          next heq => simp at heq
          next heq =>
            simp only [List.cons.injEq] at heq
            exact absurd heq.1 hcolon
          next heq =>
            simp only [List.cons.injEq] at heq
            obtain ⟨rfl, rfl⟩ := heq
            simpa using hstart
        have hnum : startsNumber (c :: (tail ++ rest)) = false := by
          rw [startsNumber, ← any_isDigit_head_atomPart, hpart]
          exact hplain.2
        rw [scanToken_of_not_mark hplain.1, hnum, hsymbol]
        rfl

/-- A text begins with a keyword when what it takes is a colon in front of a keyword's name and what it leaves
ends an atom. -/
theorem scans_keyword_iff {t k raw rest : Text} :
    Scans t (.keyword k) raw rest ↔
      raw = ':' :: k ∧ t = raw ++ rest ∧ isKeywordToken k = true ∧ EndsAtom rest := by
  constructor
  · rintro ⟨c, tail, rfl, hsep, hsemi, hscan⟩
    obtain ⟨rfl, htoken, hrest⟩ := scanToken_spelled hsep hsemi hscan
    exact ⟨rfl, (scanToken_split hscan).1.symm, htoken, hrest⟩
  · rintro ⟨rfl, rfl, htoken, hrest⟩
    simp only [isKeywordToken, Bool.and_eq_true] at htoken
    obtain ⟨⟨hatom, hname⟩, hhead⟩ := htoken
    obtain ⟨hpart, hbehind⟩ := atomPart_append hatom hrest
    refine ⟨':', k ++ rest, rfl, by decide, by decide, ?_⟩
    change scanColon (k ++ rest) = _
    rcases scanColon_cases (k ++ rest) with ⟨hall, hscan⟩ | ⟨_, hscan⟩
    · rw [hpart] at hall
      cases k with
      | nil => simp at hhead
      | cons d k => simp_all
    · rw [hscan, hpart, hbehind, hname, if_pos rfl]

/-! ## Texts of one token -/

lemma lexemes?_of_scans {t : Text} {l : Lexeme} (h : Scans t l t []) : lexemes? t = some [l] := by
  rw [lexemes?, tokens, tokensFrom_of_scans h, tokensFrom_nil]
  rfl

/-- A text of which the one lexeme is spelled with all of it has nothing else in it. -/
lemma scans_of_lexemes? {t : Text} {l : Lexeme} (h : lexemes? t = some [l])
    (hraw : ∀ raw rest, l.SpelledAs raw rest → raw = t) : Scans t l t [] := by
  rw [lexemes?, tokens, tokensFrom_eq] at h
  cases hfront : (splitIgnored false t).2 with
  | nil => simp [hfront, tokensAt, Feed.ending, Feed.items] at h
  | cons c tail =>
    rw [hfront, tokensAt] at h
    obtain ⟨hsep, hsemi⟩ := splitIgnored_front hfront
    cases hscan : scanToken c tail with
    | rejected lead flagged cause => simp [hscan, Feed.ending] at h
    | pastEnd => simp [hscan, Feed.ending] at h
    | token lexeme raw rest =>
      simp only [hscan, Feed.ending, Feed.items] at h
      split at h <;> simp only [List.map_cons, Option.some.injEq, List.cons.injEq, reduceCtorEq] at h
      obtain ⟨rfl, -⟩ := h
      obtain rfl := hraw raw rest (scanToken_spelled hsep hsemi hscan)
      have hsplit := (scanToken_split hscan).1
      have hwhole := splitIgnored_append false raw
      have hlen := congrArg List.length hwhole
      have hlen' := congrArg List.length hsplit
      simp only [hfront, List.length_append] at hlen hlen'
      obtain rfl : rest = [] := List.eq_nil_of_length_eq_zero (by omega)
      rw [List.append_nil] at hsplit
      exact ⟨c, tail, hsplit, hsep, hsemi, hscan⟩

theorem lexemes?_eq_symbol_iff {t : Text} : lexemes? t = some [.symbol t] ↔ isSymbolToken t = true := by
  constructor
  · intro h
    exact (scans_symbol_iff.1 (scans_of_lexemes? h fun raw rest hl => hl.1.symm)).2.2.1
  · intro h
    exact lexemes?_of_scans (scans_symbol_iff.2 ⟨rfl, (List.append_nil t).symm, h, fun _ hc => by simp at hc⟩)

theorem lexemes?_eq_keyword_iff {k : Text} :
    lexemes? (':' :: k) = some [.keyword k] ↔ isKeywordToken k = true := by
  constructor
  · intro h
    exact (scans_keyword_iff.1 (scans_of_lexemes? h fun raw rest hl => hl.1)).2.2.1
  · intro h
    exact lexemes?_of_scans
      (scans_keyword_iff.2 ⟨rfl, (List.append_nil _).symm, h, fun _ hc => by simp at hc⟩)

end Bilisp
