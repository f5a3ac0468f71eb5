import Bilisp.Proofs.Composition
import Bilisp.Proofs.WrittenLiterals
import Bilisp.Proofs.WrittenNumbers

/-!
# First tokens in other surroundings

Whether a text begins with a token is a matter of the characters that the token takes and of the one behind them
(`scans_iff`). So a token is scanned again wherever its characters stand, if what follows begins in the same way, or
with something that ends every token, or if nothing follows (`Scans.before`).
-/

namespace Bilisp

/-! ## What may follow a token -/

/-- Whether a character ends the token in front of it, whatever that is: a separator does, and the beginning of a
comment. -/
def endsToken (c : Char) : Bool := isSeparator c || c = ';'

/-- Whether a text may stand behind a token where another text stood: it is empty or begins with a character that
ends tokens, or it begins like the other text. -/
def Text.MayReplace (t rest : Text) : Prop := ∀ c ∈ t.head?, endsToken c = true ∨ c ∈ rest.head?

lemma isAtomChar_of_endsToken {c : Char} (h : endsToken c = true) : isAtomChar c = false := by
  rw [endsToken, Bool.or_eq_true, decide_eq_true_eq] at h
  by_contra hatom
  obtain ⟨hsep, hsemi⟩ := not_separator_of_isAtomChar (Bool.not_eq_false _ ▸ hatom)
  rcases h with h | h
  · exact Bool.false_ne_true (hsep.symm.trans h)
  · exact hsemi h

lemma isAlphanumeric_of_endsToken {c : Char} (h : endsToken c = true) : isAlphanumeric c = false := by
  rw [endsToken, isSeparator, Bool.or_eq_true, Bool.or_eq_true, decide_eq_true_eq, decide_eq_true_eq] at h
  rcases h with (h | rfl) | rfl
  · exact isAlphanumeric_of_isBlank h
  · decide
  · decide

/-- What is said about the first character behind a token holds of the text that takes its place, if nothing that ends
tokens stands against it. -/
lemma Text.MayReplace.forall {p : Char → Prop} {t rest : Text} (h : t.MayReplace rest)
    (hends : ∀ c, endsToken c = true → p c) (hrest : ∀ c ∈ rest.head?, p c) : ∀ c ∈ t.head?, p c := by
  intro c hc
  rcases h c hc with hc | hc
  · exact hends c hc
  · exact hrest c hc

/-! ## Strings -/

/-- A string that is closed is the same when nothing follows it. -/
lemma scanString_taken {t value raw rest : Text} (h : scanString t = .closed value raw rest) :
    scanString raw = .closed value raw [] := by
  have hbehind : ∀ {lead t raw rest value : Text} {c : Char},
      (scanString t).behind lead c = .closed value raw rest →
      (∀ u, scanString (lead ++ u) = (scanString u).behind lead c) →
      (∀ {value raw rest}, scanString t = .closed value raw rest → scanString raw = .closed value raw []) →
      scanString raw = .closed value raw [] := by
    intro lead t raw rest value c hs hlead ih
    cases hscan : scanString t with
    | closed value' raw' rest' =>
      rw [hscan, StringScan.behind, StringScan.closed.injEq] at hs
      obtain ⟨rfl, rfl, rfl⟩ := hs
      rw [hlead, ih hscan, StringScan.behind]
    | unfinished =>
      rw [hscan] at hs
      cases hs
    | broken lead' flagged cause =>
      rw [hscan] at hs
      cases hs
    | pastEnd =>
      rw [hscan] at hs
      cases hs
  fun_induction scanString t generalizing value raw rest with
  | case1 => cases h
  | case2 =>
    cases h
    rfl
  | case3 => cases h
  | case4 a b c d tail hdigits ih => exact hbehind h (fun u => scanString_code u hdigits) ih
  | case5 => exact absurd h (shortEscape_ne_closed _ _ _ _)
  | case6 => exact absurd h (shortEscape_ne_closed _ _ _ _)
  | case7 c tail hu character hescape ih =>
    refine hbehind h (fun u => scanString_escape u ?_ hescape) ih
    rintro rfl
    cases hescape
  | case8 => cases h
  | case9 c tail hquote hlast hdigits hescape ih =>
    refine hbehind h (fun u => scanString_plain u hquote ?_) ih
    rintro rfl
    cases tail with
    | nil => exact hlast rfl rfl
    | cons d tail => exact hescape d tail rfl rfl

/-! ## Tokens and their surroundings -/

/-- What the text of a token and the text behind it say about its lexeme, for the lexemes that begin with a mark of
their own. -/
def Lexeme.MarkedAs (raw rest : Text) : Lexeme → Prop
  | .opening o => raw = o.text
  | .closing c => raw = c.text
  | .marker m => raw = m.text ∧ (m = .unquote → ∀ c ∈ rest.head?, c ≠ '@')
  | .string value => ∃ body, raw = '"' :: body ∧ scanString body = .closed value body []
  | .character value => ∃ c name, raw = '\\' :: c :: name ∧ name.all isAlphanumeric = true ∧
      readCharacterName (c :: name) = .ok value ∧ ∀ d ∈ rest.head?, isAlphanumeric d = false
  | _ => True

lemma scanStringToken_marked {t raw rest : Text} {l : Lexeme} (h : scanStringToken t = .token l raw rest) :
    l.MarkedAs raw rest := by
  rw [scanStringToken] at h
  split at h
  next hstring =>
    cases h
    exact ⟨_, rfl, scanString_taken hstring⟩
  all_goals cases h

lemma scanCharacter_marked {t raw rest : Text} {l : Lexeme} (h : scanCharacter t = .token l raw rest) :
    l.MarkedAs raw rest := by
  unfold scanCharacter at h
  dsimp only at h
  split at h
  · cases h
  next c t =>
    split at h
    next hname =>
      cases h
      refine ⟨c, _, rfl, List.all_takeWhile, hname, fun d hd => ?_⟩
      have hstop := List.head?_dropWhile_not isAlphanumeric t
      rw [Option.mem_def] at hd
      rw [hd] at hstop
      simpa using hstop
    next => cases h

lemma scanNumber_marked {lead t raw rest : Text} {l : Lexeme} (h : scanNumber lead t = .token l raw rest) :
    l.MarkedAs raw rest := by
  rw [scanNumber] at h
  split at h <;> cases h
  trivial

lemma scanSymbol_marked {c : Char} {t raw rest : Text} {l : Lexeme} (h : scanSymbol c t = .token l raw rest) :
    l.MarkedAs raw rest := by
  obtain ⟨rfl, -⟩ := scanSymbol_inv h
  trivial

/-- A token that begins with a mark of its own is as its lexeme says. -/
lemma scanToken_marked {c : Char} {t raw rest : Text} {l : Lexeme} (h : scanToken c t = .token l raw rest) :
    l.MarkedAs raw rest := by
  unfold scanToken at h
  split at h
  case h_7 | h_8 =>
    cases h
    exact ⟨rfl, by simp⟩
  case h_9 =>
    split at h
    next =>
      cases h
      exact ⟨rfl, by simp⟩
    next hat =>
      cases h
      refine ⟨rfl, fun _ c hc hat' => ?_⟩
      obtain ⟨more, rfl⟩ := List.head?_eq_some_iff.1 (Option.mem_def.1 hc)
      exact hat more (by rw [hat'])
  case h_10 =>
    unfold scanHash at h
    split at h
    · cases h
      rfl
    · exact scanNumber_marked h
    · cases h
  case h_11 => exact scanStringToken_marked h
  case h_12 => exact scanCharacter_marked h
  case h_13 =>
    rcases scanColon_cases t with ⟨-, hscan⟩ | ⟨-, hscan⟩
    · exact scanSymbol_marked (hscan.symm.trans h)
    · rw [hscan] at h
      split at h <;> cases h
      trivial
  case h_14 =>
    split at h
    · exact scanNumber_marked h
    · exact scanSymbol_marked h
  all_goals
    cases h
    rfl

/-- A text begins with a token when its characters are the text of the token and what follows, and the text of the
token and the first character that follows are as the lexeme says. -/
theorem scans_iff {t raw rest : Text} {l : Lexeme} :
    Scans t l raw rest ↔ t = raw ++ rest ∧ l.SpelledAs raw rest ∧ l.MarkedAs raw rest := by
  constructor
  · rintro ⟨c, tail, rfl, hsep, hsemi, hscan⟩
    exact ⟨(scanToken_split hscan).1.symm, scanToken_spelled hsep hsemi hscan, scanToken_marked hscan⟩
  · rintro ⟨rfl, hspelled, hmarked⟩
    cases l with
    | symbol name =>
      obtain ⟨rfl, htoken, hrest⟩ := hspelled
      exact scans_symbol_iff.2 ⟨rfl, rfl, htoken, hrest⟩
    | keyword name =>
      obtain ⟨rfl, htoken, hrest⟩ := hspelled
      exact scans_keyword_iff.2 ⟨rfl, rfl, htoken, hrest⟩
    | number value => exact scans_number_iff.2 ⟨rfl, hspelled.1, hspelled.2⟩
    | opening opener =>
      obtain rfl : raw = opener.text := hmarked
      cases opener <;> exact ⟨_, _, rfl, by decide, by decide, rfl⟩
    | closing closer =>
      obtain rfl : raw = closer.text := hmarked
      cases closer <;> exact ⟨_, _, rfl, by decide, by decide, rfl⟩
    | marker marker =>
      obtain ⟨rfl, hrest⟩ := hmarked
      cases marker with
      | unquote =>
        refine ⟨'~', rest, rfl, by decide, by decide, ?_⟩
        cases rest with
        | nil => rfl
        | cons c rest =>
          have hc : c ≠ '@' := hrest rfl c rfl
          simp only [scanToken]
          split
          next heq => exact absurd (List.cons.inj heq).1 hc
          next => rfl
      | _ => exact ⟨_, _, rfl, by decide, by decide, rfl⟩
    | string value =>
      obtain ⟨body, rfl, hstring⟩ := hmarked
      refine ⟨'"', body ++ rest, rfl, by decide, by decide, ?_⟩
      change scanStringToken (body ++ rest) = _
      rw [scanStringToken, scanString_append rest hstring]
      rfl
    | character value =>
      obtain ⟨c, name, rfl, hname, hread, hrest⟩ := hmarked
      obtain ⟨htake, hdrop⟩ := takeWhile_dropWhile_append rest hname hrest
      refine ⟨'\\', c :: (name ++ rest), rfl, by decide, by decide, ?_⟩
      change scanCharacter (c :: (name ++ rest)) = _
      simp only [scanCharacter, htake, hdrop, hread]

/-- A token is scanned in front of other text, too, if that may stand in place of what followed it. -/
theorem Scans.before {t raw rest rest' : Text} {l : Lexeme} (h : Scans t l raw rest)
    (hrest : rest'.MayReplace rest) : Scans (raw ++ rest') l raw rest' := by
  obtain ⟨-, hspelled, hmarked⟩ := scans_iff.1 h
  have hatom : EndsAtom rest → EndsAtom rest' := hrest.forall fun _ => isAtomChar_of_endsToken
  refine scans_iff.2 ⟨rfl, ?_, ?_⟩
  · cases l with
    | symbol name => exact ⟨hspelled.1, hspelled.2.1, hatom hspelled.2.2⟩
    | keyword name => exact ⟨hspelled.1, hspelled.2.1, hatom hspelled.2.2⟩
    | number value => exact ⟨hspelled.1, hatom hspelled.2⟩
    | _ => trivial
  · cases l with
    | marker marker =>
      refine ⟨hmarked.1, fun hmarker => hrest.forall (fun c hc hat => ?_) (hmarked.2 hmarker)⟩
      subst hat
      exact absurd hc (by decide)
    | character value =>
      obtain ⟨c, name, hraw, hname, hread, hend⟩ := hmarked
      exact ⟨c, name, hraw, hname, hread, hrest.forall (fun _ => isAlphanumeric_of_endsToken) hend⟩
    | _ => exact hmarked

/-- The text behind a token is cut off: what is left of it may stand in its place. -/
lemma mayReplace_append (t rest rest' : Text) (h : rest'.MayReplace rest) :
    (t ++ rest').MayReplace (t ++ rest) := by
  cases t with
  | nil => exact h
  | cons c t => exact fun d hd => .inr hd

lemma mayReplace_nil (rest : Text) : Text.MayReplace [] rest := by
  intro c hc
  cases hc

end Bilisp
