import Bilisp.Proofs.RunInvariants
import Bilisp.Proofs.Scanning
import Bilisp.Proofs.WrittenNumbers
import Bilisp.Source

/-!
# Readable forms

A form is readable when its symbols and keywords are spelled as the scanner wants them, its characters are
single ones, its numbers are regular and its maps have an even number of elements. Every form that the reader
hands out is readable, with everything inside it (`readable_of_mem_forms`): each step of the stack machine keeps
all forms on the stack readable.
-/

namespace Bilisp

/-- Whether an atom is one that a source can write. -/
def Atom.Readable : Atom → Prop
  | .symbol name =>
    lexemes? name = some [.symbol name] ∧
      name ≠ "nil".toList ∧ name ≠ "true".toList ∧ name ≠ "false".toList
  | .keyword name => lexemes? (':' :: name) = some [.keyword name]
  | .character value => value.length = 1
  | .number value => value.IsRegular
  | _ => True

mutual

/-- Whether a form is one that a source can write. -/
def Form.Readable : Form → Prop
  | .atom value _ => value.Readable
  | .compound shape elements _ => (shape = .map → elements.length % 2 = 0) ∧ Form.AllReadable elements

/-- Whether all forms of a list are readable. -/
def Form.AllReadable : List Form → Prop
  | [] => True
  | f :: rest => Form.Readable f ∧ Form.AllReadable rest

end

lemma Form.allReadable_iff {forms : List Form} : AllReadable forms ↔ ∀ f ∈ forms, f.Readable := by
  induction forms with
  | nil => simp [AllReadable]
  | cons f forms ih => simp [AllReadable, ih]

/-! ## What tokens hold -/

/-- Whether a token is one that was scanned. -/
def Token.Scanned (token : Token) : Prop := ∃ t rest, Scans t token.lexeme token.raw rest

lemma readable_ofName {name : Text} (h : isSymbolToken name = true) : (Atom.ofName name).Readable := by
  rw [Atom.ofName]
  split_ifs with hnil htrue hfalse
  · trivial
  · trivial
  · trivial
  · exact ⟨lexemes?_eq_symbol_iff.2 h, hnil, htrue, hfalse⟩

lemma readable_markerName (marker : Marker) : (Atom.symbol marker.name).Readable := by
  cases marker <;> exact ⟨lexemes?_eq_symbol_iff.2 (by decide), by decide, by decide, by decide⟩

lemma readable_wrap {f : Form} (marker : Marker) (span : Span) (h : f.Readable) :
    (marker.wrap span f).Readable :=
  ⟨nofun, readable_markerName marker, h, trivial⟩

/-! ## Steps of the machine -/

/-- Whether all forms on the stack are readable. -/
def Pending.AllReadable (stack : List Pending) : Prop :=
  ∀ opener span elements, Pending.bracket opener span elements ∈ stack → Form.AllReadable elements

lemma Pending.AllReadable.tail {top : Pending} {below : List Pending} (h : AllReadable (top :: below)) :
    AllReadable below :=
  fun opener span elements hmem => h opener span elements (List.mem_cons_of_mem _ hmem)

lemma Pending.allReadable_bracket {opener : Opener} {span : Span} {elements : List Form}
    {below : List Pending} (helements : Form.AllReadable elements) (hbelow : AllReadable below) :
    AllReadable (.bracket opener span elements :: below) := by
  intro opener' span' elements' hmem
  rcases List.mem_cons.1 hmem with heq | hmem
  · cases heq
    exact helements
  · exact hbelow _ _ _ hmem

lemma Pending.allReadable_mark {marker : Marker} {span : Span} {below : List Pending}
    (hbelow : AllReadable below) : AllReadable (.mark marker span :: below) := by
  intro opener' span' elements' hmem
  rcases List.mem_cons.1 hmem with heq | hmem
  · cases heq
  · exact hbelow _ _ _ hmem

lemma readable_attach {f : Form} {stack : List Pending} (hf : f.Readable)
    (hstack : Pending.AllReadable stack) :
    (∀ g ∈ (attach f stack).1, g.Readable) ∧ Pending.AllReadable (attach f stack).2 := by
  induction stack generalizing f with
  | nil => exact ⟨fun g hg => by cases hg; exact hf, hstack⟩
  | cons top below ih =>
    cases top with
    | mark marker span => exact ih (readable_wrap marker span hf) hstack.tail
    | bracket opener span elements =>
      refine ⟨nofun, Pending.allReadable_bracket ⟨hf, ?_⟩ hstack.tail⟩
      exact hstack _ _ _ List.mem_cons_self

/-- Elements between brackets make a readable form: the shape of a map is only given to an even number. -/
lemma readable_compound {opener : Opener} {elements : List Form} (span : Option Span)
    (h : Form.AllReadable elements) :
    (Form.compound (opener.shape elements.length) elements.reverse span).Readable := by
  refine ⟨fun hmap => ?_, ?_⟩
  · rw [List.length_reverse]
    cases opener with
    | brace =>
      rw [Opener.shape] at hmap
      split at hmap
      · assumption
      · cases hmap
    | paren => cases hmap
    | square => cases hmap
    | hashBrace => cases hmap
  · rw [Form.allReadable_iff] at h ⊢
    exact fun f hf => h f (List.mem_reverse.1 hf)

/-- The atom that a scanned lexeme is read as is readable. -/
lemma readable_atom {token : Token} (htoken : token.Scanned) {value : Atom} (h : token.lexeme.atom? = some value) :
    value.Readable := by
  obtain ⟨t, rest, c, tail, -, hsep, hsemi, hscan⟩ := htoken
  have hspelled := scanToken_spelled hsep hsemi hscan
  cases hlexeme : token.lexeme with
  | opening opener =>
    rw [hlexeme] at h
    cases h
  | closing closer =>
    rw [hlexeme] at h
    cases h
  | marker marker =>
    rw [hlexeme] at h
    cases h
  | symbol name =>
    rw [hlexeme] at h hspelled
    cases h
    obtain ⟨rfl, hname, -⟩ := hspelled
    exact readable_ofName hname
  | keyword name =>
    rw [hlexeme] at h hspelled
    cases h
    exact lexemes?_eq_keyword_iff.2 hspelled.2.1
  | string text =>
    rw [hlexeme] at h
    cases h
    trivial
  | character c =>
    rw [hlexeme] at h
    cases h
    rfl
  | number number =>
    rw [hlexeme] at h hspelled
    cases h
    exact isRegular_of_readNumber hspelled.1

/-- One token keeps the forms on the stack readable, and so is the form that it completes. -/
lemma readable_pushToken {token : Token} {stack : List Pending} {outcome : Option Form × List Pending}
    (htoken : token.Scanned) (hstack : Pending.AllReadable stack)
    (h : pushToken token stack = .ok outcome) :
    (∀ f ∈ outcome.1, f.Readable) ∧ Pending.AllReadable outcome.2 := by
  rcases pushToken_cases h with ⟨opener, -, rfl⟩ | ⟨marker, -, rfl⟩ | ⟨value, hatom, rfl⟩ |
    ⟨opener, place, elements, below, -, rfl, rfl⟩
  · exact ⟨by simp, Pending.allReadable_bracket trivial hstack⟩
  · exact ⟨by simp, Pending.allReadable_mark hstack⟩
  · exact readable_attach (readable_atom htoken hatom) hstack
  · exact readable_attach (readable_compound _ (hstack _ _ _ List.mem_cons_self)) hstack.tail

/-- From readable forms on the stack the machine completes readable forms only. -/
lemma readable_runInvariant : RunInvariant
    (fun stack tokens => (∀ token ∈ tokens.items, token.Scanned) ∧ Pending.AllReadable stack)
    Form.Readable (fun _ => True) where
  done _ _ _ := trivial
  failed _ := trivial
  refused _ _ := trivial
  taken h hpush := by
    obtain ⟨htokens, hstack⟩ := h
    obtain ⟨hdone, hstack'⟩ := readable_pushToken (htokens _ List.mem_cons_self) hstack hpush
    exact ⟨hdone, fun token htoken => htokens token (List.mem_cons_of_mem _ htoken), hstack'⟩

/-- Every form that is read from a source is readable, also if the source has a fault behind it. -/
theorem readable_of_mem_forms {source : Text} {f : Form} (h : f ∈ (forms source).items) : f.Readable := by
  have htokens : ∀ token ∈ (tokens source).items, token.Scanned := fun token htoken =>
    scans_of_mem_tokensFrom htoken
  have hempty : Pending.AllReadable [] := fun _ _ _ hmem => absurd hmem List.not_mem_nil
  exact (readable_runInvariant.readForms ⟨htokens, hempty⟩).1 f h

end Bilisp
