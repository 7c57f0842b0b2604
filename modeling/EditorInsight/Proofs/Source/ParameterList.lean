import EditorInsight.Proofs.Source.Brackets
import EditorInsight.Proofs.Text.Blank

/-!
# Parameter lists as they are written

A parameter list is a list of labels with commas between them and blanks, line ends among them, before
each label and before the closing parenthesis. Collapsing and trimming its text give the text of a
parameter list with the same labels, and cutting the text at its top-level commas gives the labels.
-/

namespace EditorInsight

open Text

abbrev Gap := { b : Text // ∀ c ∈ b, isBlank c = true }

namespace Gap

def empty : Gap := ⟨[], isBlank_of_mem_nil⟩

def collapsed (g : Gap) : Gap := if g.val = [] then empty else ⟨[' '], isBlank_of_mem_space⟩

theorem collapseFrom_val (g : Gap) : collapseFrom false g.val = g.collapsed.val := by
  unfold collapsed
  split
  · rename_i h
    rw [h]
    rfl
  · rename_i h
    exact collapseFrom_false_blanks h g.property

theorem collapseFrom_append_cons (g : Gap) {c : Char} (hc : isBlank c = false) (t : Text) :
    collapseFrom false (g.val ++ c :: t) = g.collapsed.val ++ c :: collapseFrom false t := by
  rw [Text.collapseFrom_append_cons hc, collapseFrom_val]

theorem trim_val (g : Gap) : trim g.val = [] := by
  have h := trim_blanks_append g.property []
  rw [List.append_nil] at h
  rw [h]
  rfl

end Gap

/-- A parameter as a signature shows it. -/
structure Label where
  text : Text
  ne_nil : text ≠ []
  trimmed : trim text = text
  onlySpaces : ∀ c ∈ text, isBlank c = true → c = ' '
  singleSpaces : ¬ [' ', ' '] <:+: text
  isPiece : IsPiece text

structure Parameter where
  before : Gap
  label : Label

namespace Parameter

def text (p : Parameter) : Text := p.before.val ++ p.label.text

def collapsed (p : Parameter) : Parameter := { p with before := p.before.collapsed }

theorem isPiece_text (p : Parameter) : IsPiece p.text :=
  (IsPiece.of_blanks p.before.property).append p.label.isPiece

theorem exists_text_concat (p : Parameter) : ∃ u c, p.text = u ++ [c] ∧ isBlank c = false := by
  obtain ⟨-, c, -, -, hlast, hc⟩ := exists_ends_of_trim_eq p.label.ne_nil p.label.trimmed
  obtain ⟨u, hu⟩ := List.getLast?_eq_some_iff.mp hlast
  exact ⟨p.before.val ++ u, c, by simp [text, hu], hc⟩

theorem collapseFrom_text (p : Parameter) : collapseFrom false p.text = p.collapsed.text := by
  obtain ⟨c, -, hfirst, hc, -, -⟩ := exists_ends_of_trim_eq p.label.ne_nil p.label.trimmed
  obtain ⟨r, hr⟩ := List.head?_eq_some_iff.mp hfirst
  have hlabel := collapseFrom_of_single p.label.onlySpaces p.label.singleSpaces
  rw [hr, collapseFrom_cons hc] at hlabel
  rw [text, hr, p.before.collapseFrom_append_cons hc, hlabel, ← hr]
  rfl

theorem collapseFrom_text_append (p : Parameter) (t : Text) :
    collapseFrom false (p.text ++ t) = p.collapsed.text ++ collapseFrom false t := by
  obtain ⟨u, c, hu, hc⟩ := p.exists_text_concat
  rw [← p.collapseFrom_text, hu, List.append_assoc, List.singleton_append,
    Text.collapseFrom_append_cons hc, Text.collapseFrom_append_cons hc]
  simp [collapseFrom]

theorem trim_text_append (p : Parameter) (g : Gap) : trim (p.text ++ g.val) = p.label.text := by
  rw [text, List.append_assoc]
  exact trim_between_blanks p.before.property g.property p.label.ne_nil p.label.trimmed

theorem filter_trim_text_append (p : Parameter) (g : Gap) :
    [trim (p.text ++ g.val)].filter (· ≠ []) = [p.label.text] := by
  rw [p.trim_text_append]
  simp [p.label.ne_nil]

end Parameter

/-- The parameters of a header, as they are written between its parentheses. -/
structure ParameterList where
  parameters : List Parameter
  trailingComma : Bool
  closing : Gap

namespace ParameterList

def labels (ps : ParameterList) : List Text := ps.parameters.map (·.label.text)

def ending (ps : ParameterList) : Text := (if ps.trailingComma then [','] else []) ++ ps.closing.val

def text (ps : ParameterList) : Text := join [','] (ps.parameters.map Parameter.text) ++ ps.ending

def collapsed (ps : ParameterList) : ParameterList :=
  ⟨ps.parameters.map Parameter.collapsed, ps.trailingComma, ps.closing.collapsed⟩

def trimmed (ps : ParameterList) : ParameterList :=
  match ps.parameters with
  | [] => ⟨[], ps.trailingComma, .empty⟩
  | p :: rest => ⟨{ p with before := .empty } :: rest, ps.trailingComma, .empty⟩

@[simp] theorem labels_collapsed (ps : ParameterList) : ps.collapsed.labels = ps.labels := by
  simp [labels, collapsed, Parameter.collapsed]

@[simp] theorem labels_trimmed (ps : ParameterList) : ps.trimmed.labels = ps.labels := by
  unfold trimmed labels
  split <;> simp_all

theorem text_singleton (p : Parameter) (comma : Bool) (g : Gap) :
    (⟨[p], comma, g⟩ : ParameterList).text = p.text ++ (⟨[], comma, g⟩ : ParameterList).ending := rfl

theorem text_cons_cons (p q : Parameter) (rest : List Parameter) (comma : Bool) (g : Gap) :
    (⟨p :: q :: rest, comma, g⟩ : ParameterList).text =
      p.text ++ ',' :: (⟨q :: rest, comma, g⟩ : ParameterList).text := by
  simp [text, join, ending]

theorem collapseFrom_ending (ps : ParameterList) :
    collapseFrom false ps.ending = ps.collapsed.ending := by
  unfold ending
  cases hcomma : ps.trailingComma with
  | true =>
    simp only [collapsed, hcomma, if_true, List.singleton_append]
    rw [collapseFrom_cons (by decide), ps.closing.collapseFrom_val]
  | false =>
    simp only [collapsed, hcomma, Bool.false_eq_true, if_false, List.nil_append]
    exact ps.closing.collapseFrom_val

/-- Collapsing keeps a parameter list a parameter list. -/
theorem collapseFrom_text (ps : ParameterList) : collapseFrom false ps.text = ps.collapsed.text := by
  obtain ⟨parameters, comma, closing⟩ := ps
  have hending := collapseFrom_ending ⟨[], comma, closing⟩
  induction parameters with
  | nil => exact hending
  | cons p rest ih =>
    cases rest with
    | nil =>
      rw [text_singleton, p.collapseFrom_text_append, hending]
      rfl
    | cons q rest =>
      rw [text_cons_cons, p.collapseFrom_text_append, collapseFrom_cons (by decide), ih]
      simp only [collapsed, List.map_cons]
      rw [text_cons_cons]

theorem splitTopLevel_gap (g : Gap) : splitTopLevel g.val = [] := by
  rw [(IsPiece.of_blanks g.property).splitTopLevel_eq, g.trim_val]
  rfl

theorem splitTopLevel_ending (ps : ParameterList) : splitTopLevel ps.ending = [] := by
  unfold ending
  split
  · have hcomma := (IsPiece.of_blanks Gap.empty.property).splitTopLevel_append_comma ps.closing.val
    rw [splitTopLevel_gap, List.append_nil] at hcomma
    exact hcomma
  · exact splitTopLevel_gap ps.closing

theorem splitTopLevel_parameter (p : Parameter) (comma : Bool) (g : Gap) :
    splitTopLevel (⟨[p], comma, g⟩ : ParameterList).text = [p.label.text] := by
  rw [text_singleton, ending]
  cases comma with
  | true =>
    have htrim := p.filter_trim_text_append .empty
    rw [show p.text ++ Gap.empty.val = p.text from List.append_nil _] at htrim
    rw [if_pos rfl, List.singleton_append, p.isPiece_text.splitTopLevel_append_comma, htrim,
      splitTopLevel_gap, List.append_nil]
  | false =>
    have hpiece := p.isPiece_text.append (IsPiece.of_blanks g.property)
    rw [if_neg (by simp), List.nil_append, hpiece.splitTopLevel_eq, p.filter_trim_text_append]

theorem splitTopLevel_text (ps : ParameterList) : splitTopLevel ps.text = ps.labels := by
  obtain ⟨parameters, comma, closing⟩ := ps
  induction parameters with
  | nil => exact splitTopLevel_ending ⟨[], comma, closing⟩
  | cons p rest ih =>
    cases rest with
    | nil => exact splitTopLevel_parameter p comma closing
    | cons q rest =>
      have htrim := p.filter_trim_text_append .empty
      rw [show p.text ++ Gap.empty.val = p.text from List.append_nil _] at htrim
      rw [text_cons_cons, p.isPiece_text.splitTopLevel_append_comma, htrim, ih]
      rfl

theorem balanced_comma (k : Bracket) : Bracket.Balanced k [','] := by
  cases k <;> decide

theorem balanced_ending (ps : ParameterList) (k : Bracket) : Bracket.Balanced k ps.ending := by
  have hclosing := (IsPiece.of_blanks ps.closing.property).balanced k
  unfold ending
  split
  · exact (balanced_comma k).append hclosing
  · exact hclosing

theorem balanced_text (ps : ParameterList) (k : Bracket) : Bracket.Balanced k ps.text := by
  obtain ⟨parameters, comma, closing⟩ := ps
  induction parameters with
  | nil => exact balanced_ending ⟨[], comma, closing⟩ k
  | cons p rest ih =>
    cases rest with
    | nil => exact (p.isPiece_text.balanced k).append (balanced_ending ⟨[], comma, closing⟩ k)
    | cons q rest =>
      rw [text_cons_cons]
      exact (p.isPiece_text.balanced k).append ((balanced_comma k).append ih)

theorem exists_getLast?_text (p : Parameter) (rest : List Parameter) (comma : Bool) :
    ∃ c, (⟨p :: rest, comma, .empty⟩ : ParameterList).text.getLast? = some c ∧ isBlank c = false := by
  induction rest generalizing p with
  | nil =>
    rw [text_singleton, ending]
    cases comma with
    | true => exact ⟨',', by simp [Gap.empty], by decide⟩
    | false =>
      obtain ⟨u, c, hu, hc⟩ := p.exists_text_concat
      exact ⟨c, by simp [Gap.empty, hu], hc⟩
  | cons q rest ih =>
    obtain ⟨c, hlast, hc⟩ := ih q
    refine ⟨c, ?_, hc⟩
    rw [text_cons_cons, List.getLast?_append, List.getLast?_cons, hlast]
    rfl

theorem text_cons (p : Parameter) (rest : List Parameter) (comma : Bool) (g : Gap) :
    (⟨p :: rest, comma, g⟩ : ParameterList).text =
      p.before.val ++ ((⟨{ p with before := .empty } :: rest, comma, .empty⟩ : ParameterList).text ++
        g.val) := by
  cases rest <;> simp [text, join, ending, Parameter.text, Gap.empty]

theorem trim_text (ps : ParameterList) : trim ps.text = ps.trimmed.text := by
  obtain ⟨parameters, comma, closing⟩ := ps
  cases parameters with
  | nil =>
    cases comma with
    | true =>
      have hcomma : trim [','] = [','] := by decide
      exact trim_between_blanks Gap.empty.property closing.property (by simp) hcomma
    | false => exact closing.trim_val
  | cons p rest =>
    obtain ⟨c, -, hfirst, hc, -, -⟩ := exists_ends_of_trim_eq p.label.ne_nil p.label.trimmed
    obtain ⟨d, hlast, hd⟩ := exists_getLast?_text { p with before := .empty } rest comma
    have hhead : (⟨{ p with before := .empty } :: rest, comma, .empty⟩ : ParameterList).text.head? =
        some c := by
      obtain ⟨r, hr⟩ := List.head?_eq_some_iff.mp hfirst
      cases rest <;> simp [text, join, Parameter.text, Gap.empty, hr]
    rw [text_cons, trim_between_blanks p.before.property closing.property
      (fun hnil => by simp [hnil] at hhead) (trim_eq_self hhead hc hlast hd)]
    rfl

end ParameterList
end EditorInsight
