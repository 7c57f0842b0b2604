import EditorInsight.Proofs.Source.Findings
import EditorInsight.Proofs.Source.WrittenHeader

/-!
# From a header to the labels of its parameters

A header that stands unindented in a text is in the outline of the text, and a header below the line of a
class is a method of it. The signature of either shows the labels that are written in the header, however
the header is spread over lines.
-/

namespace EditorInsight

open Text

namespace WrittenHeader

/-! The first line of a header. -/

theorem trim_front_append (h : WrittenHeader) (indent : Gap) (r : Text) :
    trim (h.front indent ++ r) = h.opening.text ++ trimRight r := by
  obtain ⟨c, u, hc, hblank⟩ := h.opening.exists_text_cons
  have hleft : trimLeft (h.opening.text ++ r) = h.opening.text ++ r := by
    rw [hc, List.cons_append, trimLeft_cons hblank]
  rw [front, List.append_assoc, trim_blanks_append indent.property, trim, hleft,
    Opening.trimRight_text_append]

theorem isSkippable_front_append (h : WrittenHeader) (indent : Gap) (r : Text) :
    isSkippable (h.front indent ++ r) = false := by
  rw [isSkippable, h.trim_front_append, opening, Opening.text_plain_append]
  cases h.isAsync <;> rfl

theorem beginsDefinition_opening_append (h : WrittenHeader) (r : Text) :
    Outline.beginsDefinition (h.opening.text ++ r) = true := by
  rw [Outline.beginsDefinition, opening, Opening.text_plain_append]
  cases h.isAsync <;> simp

theorem isTopLevel_opening_append (h : WrittenHeader) (r : Text) :
    isTopLevel (h.opening.text ++ r) = true := by
  obtain ⟨c, u, hc, hblank⟩ := h.opening.exists_text_cons
  rw [hc]
  simp [isTopLevel, hblank]

/-- The header is in the outline of a text that consists of its lines and of blank and indented ones. -/
theorem topLevel_of_lines (h : WrittenHeader) {layout : Outline.Layout} {t : Text} {rest : List Text}
    (hmax : ((splitLines h.text).length : Int) ≤ layout.maxHeaderLines)
    (hlines : splitLines t = splitLines h.text ++ rest)
    (hrest : ∀ line ∈ rest, isTopLevel line = false) :
    (Outline.ofText layout t).topLevel.get? h.name = some (Outline.functionSymbol h.parts) := by
  have hindent : '\n' ∉ Gap.empty.val := by simp [Gap.empty]
  have hread := h.read?_eq_parts hindent hmax rest
  obtain ⟨r, others, hsplit⟩ := h.exists_splitLines hindent
  rw [hsplit] at hread
  change splitLines h.text = (h.opening.text ++ r) :: others at hsplit
  have hheader : Outline.headerAt? layout trimRight (h.opening.text ++ r) (others ++ rest) =
      some (h.parts, others.length + 1) := by
    rw [Outline.headerAt?, Opening.trimRight_text_append, if_pos (h.beginsDefinition_opening_append _)]
    exact hread
  have hat : Outline.findingAt? layout 0 (h.opening.text ++ r) (others ++ rest) =
      some (⟨0, Outline.functionSymbol h.parts, {}⟩, others.length) := by
    have hskip : isSkippable (h.opening.text ++ r) = false := h.isSkippable_front_append .empty r
    rw [Outline.findingAt?, hskip, h.isTopLevel_opening_append, hheader]
    rfl
  have hfindings : Outline.findingsOf layout t = [⟨0, Outline.functionSymbol h.parts, {}⟩] := by
    rw [Outline.findingsOf, hlines, hsplit, List.cons_append, Outline.findings]
    simp only [hat]
    rw [Outline.findings_append_skip, Outline.findings_eq_nil hrest]
  rw [Outline.topLevel_get?_ofText, hfindings]
  simp [Outline.functionSymbol, parts]

/-! A header in the body of a class. -/

def classLine (owner : Text) : Text := ("class " : Text) ++ (owner ++ [':'])

theorem trimRight_classLine (owner : Text) : trimRight (classLine owner) = classLine owner := by
  have hconcat : classLine owner = (("class " : Text) ++ owner) ++ ':' :: [] :=
    (List.append_assoc _ _ _).symm
  have htrim := trimRight_append_cons (c := ':') (by decide) (("class " : Text) ++ owner) []
  rw [hconcat, htrim]
  rfl

theorem classLine?_classLine {owner : Text} (h : isIdentifier owner = true) :
    Outline.classLine? (classLine owner) = some (owner, []) := by
  have hclass : classLine owner = ("class" : Text) ++ ([' '] ++ (owner ++ [':'])) := rfl
  have hskip : skipBlanks1? ([' '] ++ (owner ++ [':'])) = some (owner ++ [':']) := by
    cases owner with
    | nil => simp [isIdentifier] at h
    | cons c r =>
      have hc := isBlank_of_mem_identifier h List.mem_cons_self
      exact skipBlanks1?_blanks_append (by simp) (by decide) hc _
  have hname := identifier?_append h (r := [':']) (by simp; decide)
  rw [Outline.classLine?, hclass, after?_append, Option.bind_some, hskip, Option.bind_some, hname]
  rfl

theorem findingAt?_classLine {layout : Outline.Layout} {owner : Text} (h : isIdentifier owner = true)
    (index : Nat) (rest : List Text) :
    Outline.findingAt? layout index (classLine owner) rest =
      some (⟨index, Outline.classSymbol owner [], Outline.bodyMethods layout owner 0 {} rest⟩, 0) := by
  have hskip : isSkippable (classLine owner) = false := by
    have htrim : trim (classLine owner) = classLine owner := by
      rw [trim, show trimLeft (classLine owner) = classLine owner from trimLeft_cons (by decide) _,
        trimRight_classLine]
    rw [isSkippable, htrim]
    rfl
  have hheader : Outline.headerAt? layout trimRight (classLine owner) rest = none := by
    rw [Outline.headerAt?, trimRight_classLine]
    rfl
  have htop : isTopLevel (classLine owner) = true := rfl
  rw [Outline.findingAt?, hskip, htop, hheader, trimRight_classLine, classLine?_classLine h]
  rfl

theorem isTopLevel_front_append (h : WrittenHeader) {indent : Gap} (hne : indent.val ≠ []) (r : Text) :
    isTopLevel (h.front indent ++ r) = false := by
  cases hval : indent.val with
  | nil => exact absurd hval hne
  | cons c b =>
    have hc := indent.property c (by simp [hval])
    simp [front, hval, isTopLevel, hc]

theorem indentation_front_append (h : WrittenHeader) (indent : Gap) (r : Text) :
    indentation (h.front indent ++ r) = indent.val.length := by
  obtain ⟨c, u, hc, hblank⟩ := h.opening.exists_text_cons
  have hleft : trimLeft (h.opening.text ++ r) = h.opening.text ++ r := by
    rw [hc, List.cons_append, trimLeft_cons hblank]
  rw [indentation, front, List.append_assoc, trimLeft_blanks_append indent.property, hleft,
    List.length_append, Nat.add_sub_cancel]

theorem get?_bodyMethods (h : WrittenHeader) {layout : Outline.Layout} {indent : Gap} {rest : List Text}
    (owner : Text) (hne : indent.val ≠ []) (hindent : '\n' ∉ indent.val)
    (hbody : layout.bodyIndent ≤ indent.val.length)
    (hmax : ((splitLines (indent.val ++ h.text)).length : Int) ≤ layout.maxHeaderLines)
    (hrest : ∀ line ∈ rest, Declaration.isFunction h.name (trim line) = false) :
    (Outline.bodyMethods layout owner 0 {} (splitLines (indent.val ++ h.text) ++ rest)).get? h.name =
      some (Outline.methodSymbol owner h.parts) := by
  have hread := h.read?_eq_parts hindent hmax rest
  obtain ⟨r, others, hsplit⟩ := h.exists_splitLines hindent
  rw [hsplit] at hread
  have hheader : Outline.headerAt? layout trim (h.front indent ++ r) (others ++ rest) =
      some (h.parts, others.length + 1) := by
    rw [Outline.headerAt?, h.trim_front_append, if_pos (h.beginsDefinition_opening_append _)]
    exact hread
  have hfindings : Outline.methodFindings layout 0 1 (splitLines (indent.val ++ h.text) ++ rest) =
      ⟨1, h.parts, others.length + 1⟩ :: Outline.methodFindings layout 0 (2 + others.length) rest := by
    rw [hsplit, List.cons_append, Outline.methodFindings]
    simp only [h.isSkippable_front_append, h.isTopLevel_front_append hne, Bool.false_eq_true, if_false,
      h.indentation_front_append, hheader, if_neg (Int.not_lt.mpr hbody), Nat.add_sub_cancel]
    rw [Outline.methodFindings_append_skip]
  have hlater : ∀ f ∈ (Outline.methodFindings layout 0 (2 + others.length) rest).reverse,
      ¬ (decide (f.header.name = h.name) = true) := by
    intro f hf hname
    obtain ⟨i, line, below, -, hdrop, -, hat⟩ :=
      Outline.exists_headerAt?_of_mem (List.mem_reverse.mp hf)
    have hmem : line ∈ rest := List.mem_of_mem_drop (by rw [hdrop]; exact List.mem_cons_self)
    unfold Outline.headerAt? at hat
    split at hat
    · have hfunction := Header.isFunction_of_read? hat
      rw [of_decide_eq_true hname, hrest line hmem] at hfunction
      contradiction
    · simp at hat
  rw [Outline.get?_bodyMethods layout owner h.name 1, hfindings, List.reverse_cons, List.find?_append,
    List.find?_eq_none.mpr hlater]
  simp [parts]

/-- The header is a method of the class whose line stands above it, if no other line of that class and no
other definition of its name comes after. -/
theorem method?_of_lines (h : WrittenHeader) {layout : Outline.Layout} {t owner : Text} {indent : Gap}
    {rest : List Text} (howner : isIdentifier owner = true) (hne : indent.val ≠ [])
    (hindent : '\n' ∉ indent.val) (hbody : layout.bodyIndent ≤ indent.val.length)
    (hmax : ((splitLines (indent.val ++ h.text)).length : Int) ≤ layout.maxHeaderLines)
    (hlines : splitLines t = classLine owner :: (splitLines (indent.val ++ h.text) ++ rest))
    (hheader : ∀ line ∈ splitLines (indent.val ++ h.text), isTopLevel line = true →
      (Outline.classLine? (trimRight line)).map Prod.fst ≠ some owner)
    (hrest : ∀ line ∈ rest, isTopLevel line = false ∧
      Declaration.isFunction h.name (trim line) = false) :
    (Outline.ofText layout t).method? owner h.name = some (Outline.methodSymbol owner h.parts) := by
  have hmethod := h.get?_bodyMethods owner hne hindent hbody hmax fun line hline => (hrest line hline).2
  have hfindings : Outline.findingsOf layout t =
      ⟨0, Outline.classSymbol owner [], Outline.bodyMethods layout owner 0 {}
        (splitLines (indent.val ++ h.text) ++ rest)⟩ ::
        Outline.findings layout 0 1 (splitLines (indent.val ++ h.text) ++ rest) := by
    rw [Outline.findingsOf, hlines, Outline.findings, findingAt?_classLine howner]
  have hlater : ∀ f ∈ Outline.findings layout 0 1 (splitLines (indent.val ++ h.text) ++ rest),
      f.symbol.name = owner → f.methods.isEmpty = true := by
    intro f hf hname
    obtain ⟨i, line, below, n, -, hdrop, hat⟩ := Outline.exists_findingAt?_of_mem hf
    have hmem : line ∈ splitLines (indent.val ++ h.text) ++ rest :=
      List.mem_of_mem_drop (by rw [hdrop]; exact List.mem_cons_self)
    obtain ⟨-, htop, hcases⟩ := Outline.findingAt?_cases hat
    rcases hcases with ⟨hd, m, -, -, hf⟩ | ⟨name, bases, hclass, -, hf⟩ | ⟨name, -, -, hf⟩
    · rw [hf]
      rfl
    · rw [hf] at hname
      obtain rfl : name = owner := hname
      rcases List.mem_append.mp hmem with hmem | hmem
      · exact absurd (by rw [hclass]; rfl) (hheader line hmem htop)
      · rw [(hrest line hmem).1] at htop
        contradiction
    · rw [hf]
      rfl
  rw [Outline.method?, Outline.ofText_eq_foldl, hfindings, List.foldl_cons,
    Outline.methods_get?_foldl_record hlater, Outline.record, if_neg (by
      rw [OrderedMap.isEmpty_eq_false_of_get? hmethod]
      simp)]
  simp only [OrderedMap.get?_put, Outline.classSymbol, if_true, Option.bind_some]
  exact hmethod

/-- A header of at most the allowed lines is shown with the labels that are written in it: as a function
if it is unindented and blank or indented lines follow, and as a method if it is indented below the line
of its class, no line that continues it is read as a line of that class, and the blank or indented lines
that follow do not define its name again. -/
theorem indexed_header_labels (layout : Outline.Layout) (h : WrittenHeader) (t : Text)
    (rest : List Text) (hrest : ∀ line ∈ rest, isTopLevel line = false) :
    (((splitLines h.text).length : Int) ≤ layout.maxHeaderLines →
      splitLines t = splitLines h.text ++ rest →
      ∃ s, (Outline.ofText layout t).topLevel.get? h.name = some s ∧ s.kind = .function ∧
        parameterLabels s.signature = h.parameters.labels) ∧
    (∀ (owner : Text) (indent : Gap), isIdentifier owner = true → indent.val ≠ [] →
      '\n' ∉ indent.val → layout.bodyIndent ≤ indent.val.length →
      ((splitLines (indent.val ++ h.text)).length : Int) ≤ layout.maxHeaderLines →
      splitLines t = classLine owner :: (splitLines (indent.val ++ h.text) ++ rest) →
      (∀ line ∈ splitLines (indent.val ++ h.text), isTopLevel line = true →
        (Outline.classLine? (trimRight line)).map Prod.fst ≠ some owner) →
      (∀ line ∈ rest, Declaration.isFunction h.name (trim line) = false) →
      ∃ s, (Outline.ofText layout t).method? owner h.name = some s ∧ s.kind = .method owner ∧
        parameterLabels s.signature = h.parameters.labels) := by
  constructor
  · intro hmax hlines
    exact ⟨_, h.topLevel_of_lines hmax hlines hrest, rfl, h.parameterLabels_format (by simp)⟩
  · intro owner indent howner hne hindent hbody hmax hlines hheader hnames
    refine ⟨_, h.method?_of_lines howner hne hindent hbody hmax hlines hheader
      fun line hline => ⟨hrest line hline, hnames line hline⟩, rfl, ?_⟩
    exact h.parameterLabels_format (not_mem_identifier howner (by decide))

/-- A header with brackets in its labels, a trailing comma and a line without indentation. -/
def spread : WrittenHeader where
  isAsync := true
  name := "fetch"
  isIdentifier_name := by decide
  parameters := {
    parameters := [
      ⟨⟨"\n        ", by decide⟩,
        ⟨"a: dict[str, int] = {}", by decide, by decide, by decide, by decide, by decide +kernel⟩⟩,
      ⟨⟨"\n", by decide⟩, ⟨"*args", by decide, by decide, by decide, by decide, by decide +kernel⟩⟩]
    trailingComma := true
    closing := ⟨"\n    ", by decide⟩ }
  result := some ⟨"list[int]", by decide, by decide, by decide, by decide, by decide, by decide⟩

theorem indexed_header_labels_spread :
    (∃ s, (Outline.ofText {} (spread.text ++ "\n    pass\n")).topLevel.get? "fetch" = some s ∧
      s.kind = .function ∧ parameterLabels s.signature = ["a: dict[str, int] = {}", "*args"]) ∧
    (∃ s, (Outline.ofText {} ("class Client:\n    " ++ spread.text ++ "\n        pass\n")).method?
        "Client" "fetch" = some s ∧
      s.kind = .method "Client" ∧ parameterLabels s.signature = ["a: dict[str, int] = {}", "*args"]) :=
  ⟨(indexed_header_labels {} spread _ ["    pass", ""] (by decide)).1 (by decide +kernel)
      (by decide +kernel),
    (indexed_header_labels {} spread _ ["        pass", ""] (by decide)).2 "Client"
      ⟨"    ", by decide⟩ (by decide) (by decide) (by decide) (by decide +kernel) (by decide +kernel)
      (by decide +kernel) (by decide +kernel) (by decide +kernel)⟩

/-- The last definition of a method wins. A label that reads like the line of its class starts the class
again, and the line below it, which the first body skips as a part of the header, is then the method; so is
a definition of the same name that follows the header. -/
theorem labels_lost_to_later_definition :
    let h : WrittenHeader := {
      isAsync := false
      name := "m"
      isIdentifier_name := by decide
      parameters := {
        parameters := [
          ⟨⟨"\n", by decide⟩, ⟨"class C:y", by decide, by decide, by decide, by decide, by decide +kernel⟩⟩,
          ⟨⟨"\n    ", by decide⟩,
            ⟨"def m(q):z", by decide, by decide, by decide, by decide, by decide +kernel⟩⟩]
        trailingComma := false
        closing := ⟨"\n", by decide⟩ }
      result := none }
    let t : Text := "class C:\n    def m(\nclass C:y,\n    def m(q):z\n):"
    let g : WrittenHeader := { h with
      parameters := {
        parameters := [
          ⟨⟨[], by decide⟩, ⟨"a", by decide, by decide, by decide, by decide, by decide +kernel⟩⟩]
        trailingComma := false
        closing := ⟨[], by decide⟩ } }
    let u : Text := "class C:\n    def m(a):\n    def m(b):"
    (splitLines t = classLine "C" :: splitLines ("    " ++ h.text) ∧
      h.parameters.labels = ["class C:y", "def m(q):z"] ∧
      ((Outline.ofText {} t).method? "C" "m").map (fun s => parameterLabels s.signature) =
        some [("q" : Text)]) ∧
    (splitLines u = classLine "C" :: (splitLines ("    " ++ g.text) ++ [("    def m(b):" : Text)]) ∧
      g.parameters.labels = ["a"] ∧
      ((Outline.ofText {} u).method? "C" "m").map (fun s => parameterLabels s.signature) =
        some [("b" : Text)]) := by
  decide +kernel

end WrittenHeader
end EditorInsight
