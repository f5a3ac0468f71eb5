import Bilisp.Proofs.CharClasses
import Bilisp.Symbol.HostName
import Bilisp.Text.Alphanumeric

/-!
# Escaping of names

Escaping leaves exactly the host spellings as they are (`escapeSymbol_eq_self_iff`) and gives nothing else, so it is
idempotent, and a name comes back from its symbol exactly when it is a host spelling. In the other direction a
symbol comes back from its host name when it holds no underscore and no capital: no code begins with another one,
and nothing behind the underscore of a hyphen looks like the rest of a code.
-/

namespace Bilisp

/-- The characters that host names cannot hold: the hyphen and the marks with codes. -/
def surfaceChars : List Char := '-' :: hostCodes.map Prod.fst

/-- A name without the `@` in front, if it has one. -/
def behindAt (name : Text) : Text := if name.head? = some '@' then name.tail else name

/-- Whether a name is spelled as names of the host are: as an operator, or without characters that only symbols
hold behind its `@`. -/
def IsHostSpelling (name : Text) : Prop :=
  isOperator name = true ∨ ∀ c ∈ behindAt name, c ∉ surfaceChars

instance (name : Text) : Decidable (IsHostSpelling name) :=
  decidable_of_iff ((isOperator name || (behindAt name).all fun c => !surfaceChars.contains c) = true)
    (by simp [IsHostSpelling])

/-- Whether a character may stand in a host identifier of any script. -/
def isWordChar (c : Char) : Bool := isAlphanumeric c || c = '_'

/-- Whether a name is a host identifier of any script: letters, digits and underscores, no digit in front. -/
def isIdentifier : Text → Bool
  | [] => false
  | c :: rest => isWordChar c && !isDigit c && rest.all isWordChar

lemma isOperator_iff {t : Text} : isOperator t = true ↔ t ≠ [] ∧ ∀ c ∈ t, operatorChars.contains c = true := by
  rw [isOperator, Bool.and_eq_true, List.all_eq_true]
  simp

lemma escapeSymbol_operator {name : Text} (h : isOperator name = true) : escapeSymbol name = name := by
  rw [escapeSymbol, if_pos h]

lemma unescapeSymbol_operator {name : Text} (h : isOperator name = true) : unescapeSymbol name = name := by
  rw [unescapeSymbol, if_pos h]

lemma takeAt_eq_ite (t : Text) : takeAt t = if t.head? = some '@' then (['@'], t.tail) else ([], t) := by
  unfold takeAt
  split
  · rfl
  next hne =>
    rw [if_neg]
    intro hhead
    obtain ⟨rest, rfl⟩ := List.head?_eq_some_iff.1 hhead
    exact hne rest rfl

lemma takeAt_snd (t : Text) : (takeAt t).2 = behindAt t := by
  rw [takeAt_eq_ite, behindAt]
  split <;> rfl

lemma takeAt_eq (t : Text) : (takeAt t).1 ++ (takeAt t).2 = t := by
  unfold takeAt
  split <;> rfl

lemma escapeSymbol_eq {name : Text} (h : isOperator name = false) :
    escapeSymbol name = (takeAt name).1 ++ (takeAt name).2.flatMap hostChar := by
  rw [escapeSymbol, h, if_neg Bool.false_ne_true]

/-! ## Characters in host names -/

lemma hostChar_cases (c : Char) :
    (c = '-' ∧ hostChar c = ['_']) ∨ (c, hostChar c) ∈ hostCodes ∨ (c ∉ surfaceChars ∧ hostChar c = [c]) := by
  rw [hostChar]
  split_ifs with hc
  · exact .inl ⟨hc, rfl⟩
  · split
    next mark code hfind =>
      obtain rfl : mark = c := by simpa using List.find?_some hfind
      exact .inr (.inl (List.mem_of_find?_eq_some hfind))
    next hfind =>
      refine .inr (.inr ⟨?_, rfl⟩)
      rw [surfaceChars, List.mem_cons, not_or, List.mem_map]
      refine ⟨hc, ?_⟩
      rintro ⟨entry, hentry, rfl⟩
      simpa using List.find?_eq_none.1 hfind entry hentry

lemma code_chars {entry : Char × Text} (h : entry ∈ hostCodes) :
    ∀ d ∈ entry.2, d ∉ surfaceChars ∧ operatorChars.contains d = false := by
  have hcodes : ∀ entry ∈ hostCodes,
      (entry.2.all fun d => !surfaceChars.contains d && !operatorChars.contains d) = true := by decide
  simpa using hcodes entry h

/-- What stands for a character in a host name can stand there. -/
lemma not_mem_surfaceChars_of_mem_hostChar {c d : Char} (h : d ∈ hostChar c) : d ∉ surfaceChars := by
  rcases hostChar_cases c with ⟨-, heq⟩ | hcode | ⟨hc, heq⟩
  · rw [heq, List.mem_singleton] at h
    subst h
    decide
  · exact (code_chars hcode d h).1
  · rw [heq, List.mem_singleton] at h
    rwa [h]

lemma hostChar_of_not_mem {c : Char} (h : c ∉ surfaceChars) : hostChar c = [c] := by
  rcases hostChar_cases c with ⟨rfl, -⟩ | hcode | ⟨-, heq⟩
  · exact absurd List.mem_cons_self h
  · exact absurd (List.mem_cons_of_mem _ (List.mem_map_of_mem hcode)) h
  · exact heq

lemma hostChar_ne_nil (c : Char) : hostChar c ≠ [] := by
  have hcodes : ∀ entry ∈ hostCodes, entry.2 ≠ [] := by decide
  rcases hostChar_cases c with ⟨-, heq⟩ | hcode | ⟨-, heq⟩
  · rw [heq]
    exact List.cons_ne_nil _ _
  · exact hcodes _ hcode
  · rw [heq]
    exact List.cons_ne_nil _ _

lemma not_mem_surfaceChars_of_mem_flatMap {t : Text} {d : Char} (h : d ∈ t.flatMap hostChar) :
    d ∉ surfaceChars := by
  obtain ⟨c, -, hd⟩ := List.mem_flatMap.1 h
  exact not_mem_surfaceChars_of_mem_hostChar hd

lemma flatMap_hostChar_eq_self_iff {t : Text} : t.flatMap hostChar = t ↔ ∀ c ∈ t, c ∉ surfaceChars := by
  constructor
  · intro h c hc
    rw [← h] at hc
    exact not_mem_surfaceChars_of_mem_flatMap hc
  · intro h
    induction t with
    | nil => rfl
    | cons c rest ih =>
      rw [List.forall_mem_cons] at h
      rw [List.flatMap_cons, hostChar_of_not_mem h.1, ih h.2, List.singleton_append]

/-! ## Names that escaping leaves as they are -/

/-- Escaping leaves the host spellings as they are, and no other name. -/
lemma escapeSymbol_eq_self_iff {name : Text} : escapeSymbol name = name ↔ IsHostSpelling name := by
  by_cases hop : isOperator name = true
  · exact iff_of_true (escapeSymbol_operator hop) (.inl hop)
  · rw [IsHostSpelling, or_iff_right hop, escapeSymbol_eq (by simpa using hop), ← takeAt_snd,
      ← flatMap_hostChar_eq_self_iff]
    obtain ⟨lead, rest, htake, hname⟩ : ∃ lead rest, takeAt name = (lead, rest) ∧ lead ++ rest = name :=
      ⟨_, _, rfl, takeAt_eq name⟩
    rw [htake, ← hname]
    exact List.append_right_inj lead

lemma head?_flatMap_hostChar (t : Text) : (t.flatMap hostChar).head? ≠ some '@' := by
  intro hhead
  exact not_mem_surfaceChars_of_mem_flatMap (List.mem_of_mem_head? hhead) (by decide)

/-- The host name of a symbol that is no operator, in the parts that its symbol is read from. -/
lemma takeAt_escapeSymbol {name : Text} (h : isOperator name = false) :
    takeAt (escapeSymbol name) = ((takeAt name).1, (takeAt name).2.flatMap hostChar) := by
  rw [escapeSymbol_eq h, takeAt_eq_ite name]
  split_ifs with hhead
  · rfl
  · rw [takeAt_eq_ite, List.nil_append, if_neg (head?_flatMap_hostChar name)]

lemma isHostSpelling_escapeSymbol (name : Text) : IsHostSpelling (escapeSymbol name) := by
  by_cases hop : isOperator name = true
  · rw [escapeSymbol_operator hop]
    exact .inl hop
  · refine .inr ?_
    rw [← takeAt_snd, takeAt_escapeSymbol (by simpa using hop)]
    exact fun c hc => not_mem_surfaceChars_of_mem_flatMap hc

/-- Escaping a second time changes nothing. -/
lemma escapeSymbol_escapeSymbol (name : Text) : escapeSymbol (escapeSymbol name) = escapeSymbol name :=
  escapeSymbol_eq_self_iff.2 (isHostSpelling_escapeSymbol name)

/-- What a host name writes otherwise than the symbol leaves an underscore. -/
lemma escapeSymbol_of_not_mem {u : Text} (h : '_' ∉ escapeSymbol u) : escapeSymbol u = u := by
  by_cases hop : isOperator u = true
  · exact escapeSymbol_operator hop
  · rw [escapeSymbol_eq (by simpa using hop), List.mem_append, not_or] at h
    have hcodes : ∀ entry ∈ hostCodes, '_' ∈ entry.2 := by decide
    have hchars : ∀ c ∈ (takeAt u).2, c ∉ surfaceChars := by
      intro c hc
      rcases hostChar_cases c with ⟨-, heq⟩ | hcode | ⟨hsurface, -⟩
      · exact absurd (List.mem_flatMap.2 ⟨c, hc, by rw [heq]; exact List.mem_cons_self⟩) h.2
      · exact absurd (List.mem_flatMap.2 ⟨c, hc, hcodes _ hcode⟩) h.2
      · exact hsurface
    rw [escapeSymbol_eq (by simpa using hop), flatMap_hostChar_eq_self_iff.2 hchars, takeAt_eq]

/-! ## Symbols of host names -/

/-- The surface text of a name without its codes, which may not be the symbol of the name. -/
lemma unescapeSymbol_cases {host : Text} (h : isOperator host = false) :
    (unescapeSymbol host = (takeAt host).1 ++ decodeHost (takeAt host).2 ∧
        spells (unescapeSymbol host) host = true) ∨ unescapeSymbol host = host := by
  rw [unescapeSymbol, h, if_neg Bool.false_ne_true]
  dsimp only
  split
  next hspells => exact .inl ⟨rfl, hspells⟩
  next => exact .inr rfl

lemma decodeHost_of_not_mem {t : Text} (h : '_' ∉ t) : decodeHost t = t := by
  induction t with
  | nil => simp [decodeHost]
  | cons c rest ih =>
    rw [List.mem_cons, not_or] at h
    rw [decodeHost, if_neg (Ne.symm h.1), ih h.2]

/-- A name without codes and hyphens is its own symbol. -/
lemma unescapeSymbol_of_not_mem {host : Text} (h : '_' ∉ host) : unescapeSymbol host = host := by
  by_cases hop : isOperator host = true
  · exact unescapeSymbol_operator hop
  · rcases unescapeSymbol_cases (by simpa using hop) with ⟨htext, -⟩ | heq
    · have hrest : '_' ∉ (takeAt host).2 := fun hmem => h (takeAt_eq host ▸ List.mem_append_right _ hmem)
      rw [htext, decodeHost_of_not_mem hrest, takeAt_eq]
    · exact heq

lemma unescapeSymbol_of_spells {host symbol : Text} (h : isOperator host = false)
    (hdecoded : (takeAt host).1 ++ decodeHost (takeAt host).2 = symbol) (hspells : spells symbol host = true) :
    unescapeSymbol host = symbol := by
  rw [unescapeSymbol, h, if_neg Bool.false_ne_true]
  dsimp only
  rw [hdecoded, hspells, if_pos rfl]

/-- A symbol other than its host name is what the name decodes to, and is read as one plain symbol. -/
lemma unescapeSymbol_of_ne {host : Text} (h : unescapeSymbol host ≠ host) :
    unescapeSymbol host = (takeAt host).1 ++ decodeHost (takeAt host).2 ∧
      spells (unescapeSymbol host) host = true := by
  by_cases hop : isOperator host = true
  · exact absurd (unescapeSymbol_operator hop) h
  · exact (unescapeSymbol_cases (by simpa using hop)).resolve_right h

/-- A name comes back from its symbol when escaping leaves it as it is. -/
lemma escapeSymbol_unescapeSymbol_iff {host : Text} :
    escapeSymbol (unescapeSymbol host) = host ↔ escapeSymbol host = host := by
  by_cases heq : unescapeSymbol host = host
  · rw [heq]
  · obtain ⟨-, hspells⟩ := unescapeSymbol_of_ne heq
    simp only [spells, Bool.and_eq_true, beq_iff_eq] at hspells
    refine iff_of_true hspells.2 ?_
    rw [← hspells.2, escapeSymbol_escapeSymbol]

lemma not_mem_surfaceChars_of_isWordChar {c : Char} (h : isWordChar c = true) : c ∉ surfaceChars := by
  have hchars : (surfaceChars.all fun c => !isWordChar c) = true := by decide
  intro hmem
  have hnot := List.all_eq_true.1 hchars c hmem
  rw [h] at hnot
  cases hnot

lemma isHostSpelling_identifier {name : Text} (h : isIdentifier name = true) : IsHostSpelling name := by
  have hchars : ∀ c ∈ name, isWordChar c = true := by
    cases name with
    | nil => cases h
    | cons c rest =>
      simp only [isIdentifier, Bool.and_eq_true, List.all_eq_true] at h
      exact List.forall_mem_cons.2 ⟨h.1.1, h.2⟩
  refine .inr fun c hc => not_mem_surfaceChars_of_isWordChar (hchars c ?_)
  rw [behindAt] at hc
  split at hc
  · exact List.mem_of_mem_tail hc
  · exact hc

/-- A name comes back from its symbol exactly if it is a host spelling, as every identifier is. All host names of
symbols are host spellings, and different host spellings have different symbols. -/
theorem host_spellings_survive :
    (∀ name, (escapeSymbol (unescapeSymbol name) = name ↔ escapeSymbol name = name) ∧
      (escapeSymbol name = name ↔ IsHostSpelling name) ∧
      (isIdentifier name = true → escapeSymbol (unescapeSymbol name) = name)) ∧
    (∀ symbol, escapeSymbol (escapeSymbol symbol) = escapeSymbol symbol ∧
      escapeSymbol (unescapeSymbol (escapeSymbol symbol)) = escapeSymbol symbol) ∧
    ∀ host name, escapeSymbol host = host → escapeSymbol name = name →
      unescapeSymbol host = unescapeSymbol name → host = name := by
  refine ⟨fun name => ⟨escapeSymbol_unescapeSymbol_iff, escapeSymbol_eq_self_iff, fun hname => ?_⟩,
    fun symbol => ⟨escapeSymbol_escapeSymbol symbol, ?_⟩, fun host name hhost hname heq => ?_⟩
  · exact escapeSymbol_unescapeSymbol_iff.2 (escapeSymbol_eq_self_iff.2 (isHostSpelling_identifier hname))
  · exact escapeSymbol_unescapeSymbol_iff.2 (escapeSymbol_escapeSymbol symbol)
  · calc host = escapeSymbol (unescapeSymbol host) := (escapeSymbol_unescapeSymbol_iff.2 hhost).symm
      _ = escapeSymbol (unescapeSymbol name) := by rw [heq]
      _ = name := escapeSymbol_unescapeSymbol_iff.2 hname

theorem host_spellings_survive_codes :
    isIdentifier "a__LT__b_".toList = true ∧ escapeSymbol (unescapeSymbol "a__LT__b_") = "a__LT__b_".toList ∧
      escapeSymbol (unescapeSymbol "a-b") ≠ "a-b".toList := by
  have hname : isIdentifier "a__LT__b_".toList = true := by decide
  obtain ⟨hsurvives, hspelling, -⟩ := host_spellings_survive.1 "a-b"
  refine ⟨hname, (host_spellings_survive.1 _).2.2 hname, fun heq => ?_⟩
  exact absurd (hspelling.1 (hsurvives.1 heq)) (by decide)

/-! ## Symbols that come back from their host names -/

/-- Whether a character is a capital of ASCII, as codes are written with. -/
def isCapital (c : Char) : Bool := 'A' ≤ c && c ≤ 'Z'

lemma dropLead?_eq_some_iff {lead t rest : Text} : dropLead? lead t = some rest ↔ t = lead ++ rest := by
  induction lead generalizing t with
  | nil => rw [dropLead?, Option.some_inj, List.nil_append]
  | cons a lead ih =>
    cases t with
    | nil => simp [dropLead?]
    | cons b t =>
      rw [dropLead?, List.cons_append, List.cons.injEq, ← ih]
      split
      next hab => rw [and_iff_right hab.symm]
      next hab => exact iff_of_false (by simp) fun h => hab h.1.symm

lemma exists_code_of_takeCode? {t rest : Text} {mark : Char} (h : takeCode? t = some (mark, rest)) :
    ∃ code, (mark, code) ∈ hostCodes ∧ t = code ++ rest := by
  obtain ⟨entry, hentry, hdrop⟩ := List.exists_of_findSome?_eq_some h
  obtain ⟨behind, hbehind, heq⟩ := Option.map_eq_some_iff.1 hdrop
  obtain ⟨rfl, rfl⟩ := Prod.mk.inj heq
  exact ⟨entry.2, hentry, dropLead?_eq_some_iff.1 hbehind⟩

/-- A code is read as its mark whatever follows, since no code begins with another one. -/
lemma takeCode?_append {mark : Char} {code : Text} (h : (mark, code) ∈ hostCodes) (rest : Text) :
    takeCode? (code ++ rest) = some (mark, rest) := by
  have hprefixFree : ∀ e ∈ hostCodes, ∀ f ∈ hostCodes, e.2 <+: f.2 → e = f := by decide
  cases hread : takeCode? (code ++ rest) with
  | none =>
    have hnone := List.findSome?_eq_none_iff.1 hread _ h
    rw [dropLead?_eq_some_iff.2 rfl] at hnone
    cases hnone
  | some found =>
    obtain ⟨other, hother, htext⟩ := exists_code_of_takeCode? hread
    have heq : (mark, code) = (found.1, other) := by
      rcases List.prefix_or_prefix_of_prefix ⟨rest, rfl⟩ ⟨found.2, htext.symm⟩ with hlead | hlead
      · exact hprefixFree _ h _ hother hlead
      · exact (hprefixFree _ hother _ h hlead).symm
    obtain ⟨rfl, rfl⟩ := Prod.mk.inj heq
    rw [List.append_cancel_left htext]

/-- The underscore of a hyphen begins no code if no capital follows. -/
lemma takeCode?_underscore {t : Text} (h : ∀ c ∈ t.head?, isCapital c = false) : takeCode? ('_' :: t) = none := by
  have hcodes : ∀ entry ∈ hostCodes, entry.2.tail.head?.any isCapital = true := by decide
  rw [Option.eq_none_iff_forall_ne_some]
  rintro ⟨mark, rest⟩ hread
  obtain ⟨code, hcode, htext⟩ := exists_code_of_takeCode? hread
  have hcapital : code.tail.head?.any isCapital = true := hcodes _ hcode
  rcases code with _ | ⟨underscore, _ | ⟨c, code⟩⟩
  · cases hcapital
  · cases hcapital
  · obtain ⟨-, rfl⟩ := List.cons.inj htext
    exact absurd hcapital (by simp [h c rfl])

lemma decodeHost_of_ne {c : Char} (h : c ≠ '_') (t : Text) : decodeHost (c :: t) = c :: decodeHost t := by
  rw [decodeHost, if_neg h]

lemma decodeHost_code {mark : Char} {code : Text} (h : (mark, code) ∈ hostCodes) (t : Text) :
    decodeHost (code ++ t) = mark :: decodeHost t := by
  have hcodes : ∀ entry ∈ hostCodes, entry.2.head? = some '_' := by decide
  obtain ⟨code, rfl⟩ := List.head?_eq_some_iff.1 (hcodes _ h)
  have hread := takeCode?_append h t
  rw [List.cons_append] at hread ⊢
  rw [decodeHost, if_pos rfl]
  split
  next heq =>
    obtain ⟨rfl, rfl⟩ := Prod.mk.inj (Option.some.inj (heq.symm.trans hread))
    rfl
  next heq => cases heq.symm.trans hread

lemma decodeHost_hyphen {t : Text} (h : ∀ c ∈ t.head?, isCapital c = false) :
    decodeHost ('_' :: t) = '-' :: decodeHost t := by
  have hread := takeCode?_underscore h
  rw [decodeHost, if_pos rfl]
  split
  next heq => cases heq.symm.trans hread
  next => rfl

/-- What stands for a character is read as the character, unless a capital follows it. -/
lemma decodeHost_hostChar_append {c : Char} (hc : c ≠ '_') {t : Text}
    (ht : ∀ d ∈ t.head?, isCapital d = false) : decodeHost (hostChar c ++ t) = c :: decodeHost t := by
  rcases hostChar_cases c with ⟨rfl, heq⟩ | hcode | ⟨-, heq⟩
  · rw [heq]
    exact decodeHost_hyphen ht
  · exact decodeHost_code hcode t
  · rw [heq]
    exact decodeHost_of_ne hc t

/-- No capital comes first in the host name of a text without capitals. -/
lemma head?_hostChar_append {c : Char} (hc : isCapital c = false) (t : Text) :
    ∀ d ∈ (hostChar c ++ t).head?, isCapital d = false := by
  have hcodes : ∀ entry ∈ hostCodes, entry.2.head? = some '_' := by decide
  rcases hostChar_cases c with ⟨-, heq⟩ | hcode | ⟨-, heq⟩
  · rw [heq]
    rintro _ ⟨⟩
    decide
  · obtain ⟨code, hlead⟩ := List.head?_eq_some_iff.1 (hcodes _ hcode)
    dsimp only at hlead
    rw [hlead]
    rintro _ ⟨⟩
    decide
  · rw [heq]
    rintro _ ⟨⟩
    exact hc

/-- Decoding resynchronizes behind every character, so it undoes the coding of all. -/
lemma decodeHost_flatMap_hostChar {t : Text} (h : ∀ c ∈ t, c ≠ '_' ∧ isCapital c = false) :
    decodeHost (t.flatMap hostChar) = t := by
  induction t with
  | nil => rw [List.flatMap_nil, decodeHost]
  | cons c rest ih =>
    rw [List.forall_mem_cons] at h
    rw [List.flatMap_cons, decodeHost_hostChar_append h.1.1, ih h.2]
    cases rest with
    | nil => exact fun d hd => absurd hd (Option.not_mem_none d)
    | cons d rest =>
      rw [List.flatMap_cons]
      exact head?_hostChar_append (h.2 d List.mem_cons_self).2 _

lemma not_mem_surfaceChars_of_operatorChars {c : Char} (h : ∀ d ∈ hostChar c, operatorChars.contains d = true) :
    c ∉ surfaceChars := by
  rcases hostChar_cases c with ⟨-, heq⟩ | hcode | ⟨hc, -⟩
  · rw [heq] at h
    exact absurd (h '_' List.mem_cons_self) (by decide)
  · obtain ⟨d, hd⟩ := List.exists_mem_of_ne_nil _ (hostChar_ne_nil c)
    exact absurd (h d hd) (by rw [(code_chars hcode d hd).2]; exact Bool.false_ne_true)
  · exact hc

/-- The host name of a symbol is an operator only if the symbol is. -/
lemma isOperator_escapeSymbol {name : Text} (h : isOperator name = false) :
    isOperator (escapeSymbol name) = false := by
  rw [← Bool.not_eq_true]
  intro hop
  have hchars := (isOperator_iff.1 hop).2
  rw [escapeSymbol_eq h, List.forall_mem_append] at hchars
  have hplain : ∀ c ∈ (takeAt name).2, c ∉ surfaceChars := fun c hc =>
    not_mem_surfaceChars_of_operatorChars fun d hd => hchars.2 d (List.mem_flatMap.2 ⟨c, hc, hd⟩)
  rw [takeAt_snd] at hplain
  rw [escapeSymbol_eq_self_iff.2 (.inr hplain), h] at hop
  cases hop

/-- A segment of a symbol that does not begin like a number and holds neither underscores nor capitals comes back
from its host name. -/
theorem unescapeSymbol_escapeSymbol {symbol : Text} (hsegment : isSegment symbol = true)
    (hsigned : startsSigned symbol = false) (hunderscore : '_' ∉ symbol)
    (hcapital : ∀ c ∈ symbol, isCapital c = false) : unescapeSymbol (escapeSymbol symbol) = symbol := by
  by_cases hop : isOperator symbol = true
  · rw [escapeSymbol_operator hop, unescapeSymbol_operator hop]
  · have hop : isOperator symbol = false := by simpa using hop
    have hrest : ∀ c ∈ (takeAt symbol).2, c ≠ '_' ∧ isCapital c = false := by
      intro c hc
      have hmem : c ∈ symbol := takeAt_eq symbol ▸ List.mem_append_right _ hc
      exact ⟨fun heq => hunderscore (heq ▸ hmem), hcapital c hmem⟩
    have hdecoded : (takeAt (escapeSymbol symbol)).1 ++ decodeHost (takeAt (escapeSymbol symbol)).2 = symbol := by
      rw [takeAt_escapeSymbol hop, decodeHost_flatMap_hostChar hrest, takeAt_eq]
    have hspells : spells symbol (escapeSymbol symbol) = true := by
      rw [spells, hsegment, hsigned, beq_self_eq_true]
      rfl
    exact unescapeSymbol_of_spells (isOperator_escapeSymbol hop) hdecoded hspells

theorem unescapeSymbol_escapeSymbol_marks :
    isSegment "--*out?->b!'".toList = true ∧ startsSigned "--*out?->b!'".toList = false ∧
      escapeSymbol "--*out?->b!'" = "___STAR_out_QMARK___GT_b_BANG__PRIME_".toList ∧
      unescapeSymbol "___STAR_out_QMARK___GT_b_BANG__PRIME_" = "--*out?->b!'".toList := by
  have hsegment : isSegment "--*out?->b!'".toList = true := by decide
  have hsigned : startsSigned "--*out?->b!'".toList = false := by decide
  have hcapital : ("--*out?->b!'".toList.all fun c => !isCapital c) = true := by decide
  have hescape : escapeSymbol "--*out?->b!'" = "___STAR_out_QMARK___GT_b_BANG__PRIME_".toList := by decide
  refine ⟨hsegment, hsigned, hescape, ?_⟩
  rw [← hescape]
  exact unescapeSymbol_escapeSymbol hsegment hsigned (by decide) (by simpa using hcapital)

end Bilisp
