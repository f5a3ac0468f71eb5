import Bilisp.Form.Printer
import Bilisp.Proofs.ReadableForms
import Bilisp.Proofs.WrittenLiterals

/-!
# Written forms

A written form is read back in front of everything that a form is written in front of: a space, a line feed, a
closing bracket or the end of the text. The induction is on the form and speaks of the stack machine, which
does to any stack what it does to the empty one. Together with `readable_of_mem_forms` this makes the readable
forms exactly the forms that survive the way through their text (`reader_undoes_printer`).
-/

namespace Bilisp

/-! ## What may follow a form -/

/-- The characters that a form is written in front of. -/
def formEnds : List Char := [' ', '\n', ')', ']', '\x7d']

/-- The text goes on in one of the ways in which it does behind a written form. -/
def EndsForm (t : Text) : Prop := ∀ c ∈ t.head?, c ∈ formEnds

lemma EndsForm.endsAtom {t : Text} (h : EndsForm t) : EndsAtom t := by
  have hall : formEnds.all (fun c => !isAtomChar c) = true := by decide
  intro c hc
  simpa using List.all_eq_true.1 hall c (h c hc)

lemma EndsForm.not_alphanumeric {t : Text} (h : EndsForm t) : ∀ c ∈ t.head?, isAlphanumeric c = false := by
  have hall : formEnds.all (fun c => !isAlphanumeric c) = true := by decide
  intro c hc
  simpa using List.all_eq_true.1 hall c (h c hc)

/-! ## Atoms -/

/-- A name is read as the symbol of that name. -/
lemma scans_name {name rest : Text} (h : isSymbolToken name = true) (hrest : EndsForm rest) :
    Scans (name ++ rest) (.symbol name) name rest :=
  scans_symbol_iff.2 ⟨rfl, rfl, h, hrest.endsAtom⟩

/-- The token of a written atom gives the atom back. -/
lemma exists_token_of_atom {a : Atom} (ha : a.Readable) (rest : Text) (hrest : EndsForm rest) :
    ∃ l, Scans (a.text ++ rest) l a.text rest ∧ l.atom? = some a := by
  cases a with
  | symbol name =>
    obtain ⟨hname, hnil, htrue, hfalse⟩ := ha
    refine ⟨.symbol name, scans_name (lexemes?_eq_symbol_iff.1 hname) hrest, ?_⟩
    rw [Lexeme.atom?, Atom.ofName, if_neg hnil, if_neg htrue, if_neg hfalse]
  | keyword name =>
    exact ⟨.keyword name, scans_keyword_iff.2 ⟨rfl, rfl, lexemes?_eq_keyword_iff.1 ha, hrest.endsAtom⟩, rfl⟩
  | string value => exact ⟨.string value, scans_string value rest, rfl⟩
  | character value =>
    obtain ⟨c, rfl⟩ := List.length_eq_one_iff.1 ha
    exact ⟨.character c, scans_character c hrest.not_alphanumeric, rfl⟩
  | number value => exact ⟨.number value, scans_number_iff.2 ⟨rfl, readNumber_text ha, hrest.endsAtom⟩, rfl⟩
  | nil => exact ⟨.symbol "nil", scans_name (by decide) hrest, rfl⟩
  | boolean value =>
    cases value with
    | true => exact ⟨.symbol "true", scans_name (by decide) hrest, rfl⟩
    | false => exact ⟨.symbol "false", scans_name (by decide) hrest, rfl⟩

lemma newline_not_mem_of_all_isAtomChar {t : Text} (h : t.all isAtomChar = true) : '\n' ∉ t := by
  have hline : isAtomChar '\n' = false := by decide
  intro hmem
  rw [List.all_eq_true.1 h '\n' hmem] at hline
  cases hline

lemma newline_not_mem_atomText {a : Atom} (ha : a.Readable) : '\n' ∉ a.text := by
  cases a with
  | symbol name =>
    have hname := lexemes?_eq_symbol_iff.1 ha.1
    simp only [isSymbolToken, Bool.and_eq_true] at hname
    exact newline_not_mem_of_all_isAtomChar hname.1.1
  | keyword name =>
    have hname := lexemes?_eq_keyword_iff.1 ha
    simp only [isKeywordToken, Bool.and_eq_true] at hname
    rw [Atom.text, List.mem_cons, not_or]
    exact ⟨by decide, newline_not_mem_of_all_isAtomChar hname.1.1⟩
  | string value => exact newline_not_mem_stringText value
  | character value =>
    obtain ⟨c, rfl⟩ := List.length_eq_one_iff.1 ha
    exact newline_not_mem_characterText c
  | number value => exact newline_not_mem_of_all_isAtomChar (spelling_of_readNumber (readNumber_text ha)).1
  | nil => decide
  | boolean value => cases value <;> decide

/-! ## Brackets -/

/-- The bracket that a shape is written with. -/
def Shape.opener : Shape → Opener
  | .list => .paren
  | .vector => .square
  | .map => .brace
  | .set => .hashBrace

lemma scans_opener (shape : Shape) (rest : Text) :
    Scans (shape.brackets.1 ++ rest) (.opening shape.opener) shape.brackets.1 rest := by
  cases shape <;> exact ⟨_, _, rfl, by decide, by decide, rfl⟩

lemma scans_closer (shape : Shape) (rest : Text) :
    Scans (shape.brackets.2 ++ rest) (.closing shape.opener.closer) shape.brackets.2 rest := by
  cases shape <;> exact ⟨_, _, rfl, by decide, by decide, rfl⟩

lemma endsForm_closer (shape : Shape) (rest : Text) : EndsForm (shape.brackets.2 ++ rest) := by
  intro c hc
  cases shape <;> cases hc <;> decide

lemma shape_opener {shape : Shape} {elements : List Form}
    (h : shape = .map → elements.length % 2 = 0) : shape.opener.shape elements.length = shape := by
  cases shape with
  | map => exact if_pos (h rfl)
  | list => rfl
  | vector => rfl
  | set => rfl

lemma length_bareAll (forms : List Form) : (Form.bareAll forms).length = forms.length := by
  induction forms with
  | nil => rfl
  | cons f forms ih => rw [Form.bareAll, List.length_cons, List.length_cons, ih]

lemma join_texts_singleton (separator : Text) (f : Form) :
    Text.join separator (Form.texts [f]) = f.text := List.intercalate_singleton

lemma join_texts_cons_cons (separator : Text) (f g : Form) (forms : List Form) :
    Text.join separator (Form.texts (f :: g :: forms)) =
      f.text ++ (separator ++ Text.join separator (Form.texts (g :: forms))) := by
  rw [← List.append_assoc]
  exact List.intercalate_cons_cons

mutual

/-- The machine goes through a written form as if the form, with some spans, were attached to the stack. -/
theorem run_formText (f : Form) (hf : f.Readable) (p : Position) (rest : Text) (hrest : EndsForm rest) :
    ∃ f' p', f'.bare = f.bare ∧
      ∀ stack, run stack (tokensFrom p (f.text ++ rest)) = resume (attach f' stack) (tokensFrom p' rest) := by
  cases f with
  | atom a span =>
    obtain ⟨l, hscan, hatom⟩ := exists_token_of_atom hf rest hrest
    refine ⟨.atom a (some (p.span a.text)), p.after a.text, rfl, fun stack => ?_⟩
    rw [Form.text, tokensFrom_of_scans hscan, run_of_ok (pushToken_atom hatom stack)]
  | compound shape elements span =>
    obtain ⟨elements', p', hbare, hrun⟩ :=
      run_elementTexts elements hf.2 (p.after shape.brackets.1) (endsForm_closer shape rest)
    have hlength : elements'.length = elements.length := by rw [← length_bareAll, hbare, length_bareAll]
    refine ⟨.compound shape elements' (some ⟨p, p'.after shape.brackets.2⟩), p'.after shape.brackets.2, ?_,
      fun stack => ?_⟩
    · rw [Form.bare, Form.bare, hbare]
    · have hopen : pushToken ⟨.opening shape.opener, shape.brackets.1, p.span shape.brackets.1⟩ stack =
          .ok (none, .bracket shape.opener (p.span shape.brackets.1) [] :: stack) := rfl
      have hclose : pushToken ⟨.closing shape.opener.closer, shape.brackets.2, p'.span shape.brackets.2⟩
          (.bracket shape.opener (p.span shape.brackets.1) elements'.reverse :: stack) =
          .ok (attach (.compound shape elements' (some ⟨p, p'.after shape.brackets.2⟩)) stack) := by
        refine (if_pos rfl).trans ?_
        rw [List.length_reverse, List.reverse_reverse, hlength, shape_opener hf.1]
        rfl
      rw [Form.text, List.append_assoc, List.append_assoc, tokensFrom_of_scans (scans_opener shape _),
        run_of_ok hopen, resume, hrun, List.append_nil, tokensFrom_of_scans (scans_closer shape rest),
        run_of_ok hclose]

theorem run_elementTexts (elements : List Form) (helements : Form.AllReadable elements) (p : Position)
    {rest : Text} (hrest : EndsForm rest) :
    ∃ elements' p', Form.bareAll elements' = Form.bareAll elements ∧ ∀ opener span before stack,
      run (.bracket opener span before :: stack)
          (tokensFrom p (Text.join " " (Form.texts elements) ++ rest)) =
        run (.bracket opener span (elements'.reverse ++ before) :: stack) (tokensFrom p' rest) := by
  cases elements with
  | nil => exact ⟨[], p, rfl, fun _ _ _ _ => rfl⟩
  | cons f elements =>
    cases elements with
    | nil =>
      obtain ⟨f', p', hbare, hrun⟩ := run_formText f helements.1 p _ hrest
      refine ⟨[f'], p', ?_, fun opener span before stack => ?_⟩
      · rw [Form.bareAll, hbare]
        rfl
      · rw [join_texts_singleton, hrun]
        rfl
    | cons g elements =>
      have hspace : isSeparator ' ' = true := by decide
      have hends : EndsForm (' ' :: (Text.join " " (Form.texts (g :: elements)) ++ rest)) := by
        intro c hc
        cases hc
        decide
      obtain ⟨f', p', hbare, hrun⟩ := run_formText f helements.1 p _ hends
      obtain ⟨elements', p'', hbare', hrun'⟩ :=
        run_elementTexts (g :: elements) helements.2 (p'.next ' ') hrest
      refine ⟨f' :: elements', p'', ?_, fun opener span before stack => ?_⟩
      · rw [Form.bareAll, hbare, hbare']
        rfl
      · have htext : Text.join " " (Form.texts (f :: g :: elements)) ++ rest =
            f.text ++ (' ' :: (Text.join " " (Form.texts (g :: elements)) ++ rest)) := by
          rw [join_texts_cons_cons, List.append_assoc]
          rfl
        rw [htext, hrun, tokensFrom_separator hspace, attach, resume, hrun', List.reverse_cons,
          List.append_assoc]
        rfl

end

/-! ## Lines -/

lemma tokensFrom_newlines (n : Nat) (t : Text) (p : Position) :
    ∃ p', tokensFrom p (List.replicate n '\n' ++ t) = tokensFrom p' t := by
  have hline : isSeparator '\n' = true := by decide
  induction n generalizing p with
  | zero => exact ⟨p, rfl⟩
  | succ n ih =>
    obtain ⟨p', h⟩ := ih (p.next '\n')
    exact ⟨p', by rw [List.replicate_succ, List.cons_append, tokensFrom_separator hline, h]⟩

/-- A feed that hands out a list of items and ends without a fault. -/
def Feed.ofList {α : Type} (items : List α) : Feed α Unit := items.foldr .next (.done ())

lemma Feed.items_ofList {α : Type} (items : List α) : (Feed.ofList items).items = items := by
  induction items with
  | nil => rfl
  | cons item items ih => exact congrArg (item :: ·) ih

lemma Feed.ending_ofList {α : Type} (items : List α) : (Feed.ofList items).ending = .ok () := by
  induction items with
  | nil => rfl
  | cons item items ih => exact ih

/-- A form is handed out when the machine meets no fault behind it. -/
lemma resume_ofList {f : Form} {behind : Tokens} {later : List Form}
    (h : run [] behind = Feed.ofList later) : resume (attach f []) behind = Feed.ofList (f :: later) := by
  have hsound : ∀ fault, behind ≠ .failed fault := by
    rintro fault rfl
    cases later <;> cases h
  change handOut f behind (run [] behind) = _
  rw [handOut_of_sound _ hsound, h]
  rfl

lemma run_layout (n : Nat) (fs : List Form) (hfs : Form.AllReadable fs) (p : Position) :
    ∃ fs', Form.bareAll fs' = Form.bareAll fs ∧
      run [] (tokensFrom p (Text.join (List.replicate (n + 1) '\n') (Form.texts fs))) = Feed.ofList fs' := by
  induction fs generalizing p with
  | nil => exact ⟨[], rfl, by rw [Form.texts, Text.join, List.intercalate_nil, tokensFrom_nil]; rfl⟩
  | cons f fs ih =>
    cases fs with
    | nil =>
      obtain ⟨f', p', hbare, hrun⟩ := run_formText f hfs.1 p [] (by simp [EndsForm])
      refine ⟨[f'], by rw [Form.bareAll, hbare]; rfl, ?_⟩
      rw [join_texts_singleton, ← List.append_nil f.text, hrun]
      exact resume_ofList (by rw [tokensFrom_nil]; rfl)
    | cons g fs =>
      have hends : EndsForm (List.replicate (n + 1) '\n' ++
          Text.join (List.replicate (n + 1) '\n') (Form.texts (g :: fs))) := by
        intro c hc
        cases hc
        decide
      obtain ⟨f', p', hbare, hrun⟩ := run_formText f hfs.1 p _ hends
      obtain ⟨p'', hlines⟩ := tokensFrom_newlines (n + 1)
        (Text.join (List.replicate (n + 1) '\n') (Form.texts (g :: fs))) p'
      obtain ⟨fs', hbare', hrun'⟩ := ih hfs.2 p''
      refine ⟨f' :: fs', by rw [Form.bareAll, hbare, hbare']; rfl, ?_⟩
      rw [join_texts_cons_cons, hrun, hlines]
      exact resume_ofList hrun'

/-- Readable forms on lines of their own are read back, each with the places it was read from. -/
theorem forms_layout {fs : List Form} (hfs : ∀ f ∈ fs, f.Readable) {blankLines : Int} (h : 0 ≤ blankLines) :
    ∃ fs', Form.bareAll fs' = Form.bareAll fs ∧ forms (Form.layout fs blankLines) = Feed.ofList fs' := by
  obtain ⟨fs', hbare, hrun⟩ :=
    run_layout blankLines.toNat fs (Form.allReadable_iff.2 hfs) .origin
  refine ⟨fs', hbare, ?_⟩
  have hlines : (blankLines + 1).toNat = blankLines.toNat + 1 := by omega
  rw [forms, readForms_eq_run, tokens, Form.layout, hlines, hrun]

mutual

lemma newline_not_mem_formText (f : Form) (hf : f.Readable) : '\n' ∉ f.text := by
  cases f with
  | atom a span => exact newline_not_mem_atomText hf
  | compound shape elements span =>
    have hbrackets : '\n' ∉ shape.brackets.1 ∧ '\n' ∉ shape.brackets.2 := by cases shape <;> decide
    rw [Form.text, List.mem_append, List.mem_append, not_or, not_or]
    exact ⟨⟨hbrackets.1, newline_not_mem_elementTexts elements hf.2⟩, hbrackets.2⟩

lemma newline_not_mem_elementTexts (elements : List Form) (h : Form.AllReadable elements) :
    '\n' ∉ Text.join " " (Form.texts elements) := by
  cases elements with
  | nil => exact List.not_mem_nil
  | cons f elements =>
    have hf := newline_not_mem_formText f h.1
    cases elements with
    | nil => rwa [join_texts_singleton]
    | cons g elements =>
      have hrest := newline_not_mem_elementTexts (g :: elements) h.2
      rw [join_texts_cons_cons, List.mem_append, List.mem_append, not_or, not_or]
      exact ⟨hf, by decide, hrest⟩

end

lemma formText_ne_nil {f : Form} (hf : f.Readable) : f.text ≠ [] := by
  cases f with
  | atom a span =>
    obtain ⟨l, ⟨c, tail, htext, -⟩, -⟩ := exists_token_of_atom hf [] nofun
    rw [List.append_nil] at htext
    rw [Form.text, htext]
    exact List.cons_ne_nil _ _
  | compound shape elements span => cases shape <;> exact List.cons_ne_nil _ _

/-- The lines of a text that are not empty. -/
def filledLines (t : Text) : List Text := (t.splitOn '\n').filter (!·.isEmpty)

lemma filledLines_newlines (n : Nat) (t : Text) : filledLines (List.replicate n '\n' ++ t) = filledLines t := by
  induction n with
  | zero => rfl
  | succ n ih =>
    rw [filledLines, List.replicate_succ, List.cons_append, ← List.nil_append ('\n' :: _),
      List.splitOn_append_cons_self_of_not_mem List.not_mem_nil]
    exact ih

lemma filledLines_append {t : Text} (ht : '\n' ∉ t) (hne : t ≠ []) (n : Nat) (rest : Text) :
    filledLines (t ++ (List.replicate (n + 1) '\n' ++ rest)) = t :: filledLines rest := by
  have hfilled : (!t.isEmpty) = true := by simpa using hne
  rw [← filledLines_newlines n rest, filledLines, List.replicate_succ, List.cons_append,
    List.splitOn_append_cons_self_of_not_mem ht, List.filter_cons, if_pos hfilled]
  rfl

/-- Every readable form stands on a line of its own, and the other lines of a layout are empty. -/
lemma filledLines_layout {fs : List Form} (hfs : Form.AllReadable fs) (n : Nat) :
    filledLines (Text.join (List.replicate (n + 1) '\n') (Form.texts fs)) = Form.texts fs := by
  induction fs with
  | nil => rfl
  | cons f fs ih =>
    have hline := newline_not_mem_formText f hfs.1
    have hne := formText_ne_nil hfs.1
    cases fs with
    | nil =>
      rw [join_texts_singleton, filledLines, List.splitOn_eq_singleton hline]
      simp [Form.texts, hne]
    | cons g fs =>
      rw [join_texts_cons_cons, filledLines_append hline hne, ih hfs.2]
      rfl

/-- The reader undoes the printer on exactly the forms that it can hand out. Readable forms, laid out with any
number of blank lines between them, are read back without a fault and without any difference but their spans;
their texts hold no line feed and are the lines of the layout that are not empty; and whatever is read from any
source, at any depth, is readable. -/
theorem reader_undoes_printer :
    (∀ (fs : List Form) (blankLines : Int), (∀ f ∈ fs, f.Readable) → 0 ≤ blankLines →
      (forms (Form.layout fs blankLines)).ending = .ok () ∧
        Form.bareAll (forms (Form.layout fs blankLines)).items = Form.bareAll fs ∧
        (∀ f ∈ fs, '\n' ∉ f.text) ∧ filledLines (Form.layout fs blankLines) = Form.texts fs) ∧
      ∀ source : Text, ∀ f ∈ (forms source).items, f.Readable := by
  refine ⟨fun fs blankLines hfs h => ?_, fun source f hf => readable_of_mem_forms hf⟩
  obtain ⟨fs', hbare, hforms⟩ := forms_layout hfs h
  have hlines : (blankLines + 1).toNat = blankLines.toNat + 1 := by omega
  refine ⟨?_, ?_, fun f hf => newline_not_mem_formText f (hfs f hf), ?_⟩
  · rw [hforms, Feed.ending_ofList]
  · rw [hforms, Feed.items_ofList, hbare]
  · rw [Form.layout, hlines, filledLines_layout (Form.allReadable_iff.2 hfs)]

/-- A map of a keyword and a character, and a call with a string, a ratio and a constant. -/
def sampleForms : List Form :=
  [.compound .map [.atom (.keyword "a-b") none, .atom (.character [' ']) none] none,
    Form.headed "f.g" [.atom (.string "x\ny\"") none, .atom (.number (.ratio (-1 / 2))) none, Form.nil]]

theorem reader_undoes_printer_sample :
    (∀ f ∈ sampleForms, f.Readable) ∧
      Form.bareAll (forms (Form.layout sampleForms 1)).items = Form.bareAll sampleForms ∧
      ∀ f ∈ (forms (Form.layout sampleForms 1)).items, f.Readable := by
  have hkeyword : lexemes? ":a-b" = some [.keyword "a-b"] := lexemes?_eq_keyword_iff.2 (by decide)
  have hsymbol : (Atom.symbol "f.g").Readable :=
    ⟨lexemes?_eq_symbol_iff.2 (by decide), by decide, by decide, by decide⟩
  have hreadable : ∀ f ∈ sampleForms, f.Readable := by
    rw [← Form.allReadable_iff]
    exact ⟨⟨fun _ => rfl, hkeyword, rfl, trivial⟩, ⟨nofun, hsymbol, trivial, trivial, trivial, trivial⟩, trivial⟩
  exact ⟨hreadable, (reader_undoes_printer.1 sampleForms 1 hreadable (by decide)).2.1,
    reader_undoes_printer.2 (Form.layout sampleForms 1)⟩

end Bilisp
