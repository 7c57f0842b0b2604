import EditorInsight.Proofs.Data.OrderedMap
import EditorInsight.Proofs.Source.Opening

/-!
# What a scan finds

The scan of a module and the scan of a class body, told as the list of what they record with the lines
that it stands on. An outline is the result of recording these findings one after the other, so a name
has the symbol of the last finding under that name.
-/

namespace EditorInsight

namespace Outline

/-- What the scan of a module records: the line, the symbol and, for a class, its methods. -/
structure Finding where
  line : Nat
  symbol : Symbol
  methods : OrderedMap Text Symbol := {}

/-- A header that the scan of a class body records, with the number of its lines. -/
structure MethodFinding where
  line : Nat
  header : Header
  lineCount : Nat

def record (o : Outline) (f : Finding) : Outline :=
  let o := o.putTopLevel f.symbol
  if f.methods.isEmpty then o else { o with methods := o.methods.put f.symbol.name f.methods }

/-- The header that starts at the first line, if that line begins a definition once trimmed by `cut`. -/
def headerAt? (layout : Layout) (cut : Text → Text) (line : Text) (rest : List Text) :
    Option (Header × Nat) :=
  if beginsDefinition (cut line) then Header.read? layout.maxHeaderLines (line :: rest) else none

/-- What is recorded at a line, and how many lines below it belong to that. -/
def findingAt? (layout : Layout) (index : Nat) (line : Text) (rest : List Text) :
    Option (Finding × Nat) :=
  if Text.isSkippable line || !Text.isTopLevel line then none
  else
    match headerAt? layout Text.trimRight line rest with
    | some (h, n) => some ({ line := index, symbol := functionSymbol h }, n - 1)
    | none =>
      match classLine? (Text.trimRight line) with
      | some (name, bases) => some (⟨index, classSymbol name bases, bodyMethods layout name 0 {} rest⟩, 0)
      | none => (variableLine? (Text.trimRight line)).map
          fun name => ({ line := index, symbol := Symbol.binding name }, 0)

/-- The findings in the lines, of which the first has the given index; `skip` lines belong to a header
already read. -/
def findings (layout : Layout) (skip index : Nat) : List Text → List Finding
  | [] => []
  | line :: rest =>
    match skip with
    | k + 1 => findings layout k (index + 1) rest
    | 0 =>
      match findingAt? layout index line rest with
      | some (f, n) => f :: findings layout n (index + 1) rest
      | none => findings layout 0 (index + 1) rest

def findingsOf (layout : Layout) (t : Text) : List Finding := findings layout 0 0 (Text.splitLines t)

/-- The headers recorded in the lines of a class body. -/
def methodFindings (layout : Layout) (skip index : Nat) : List Text → List MethodFinding
  | [] => []
  | line :: rest =>
    match skip with
    | k + 1 => methodFindings layout k (index + 1) rest
    | 0 =>
      if Text.isSkippable line then methodFindings layout 0 (index + 1) rest
      else if Text.isTopLevel line then []
      else if (Text.indentation line : Int) < layout.bodyIndent then []
      else
        match headerAt? layout Text.trim line rest with
        | some (h, n) => ⟨index, h, n⟩ :: methodFindings layout (n - 1) (index + 1) rest
        | none => methodFindings layout 0 (index + 1) rest

/-! An outline is made of findings. -/

theorem scan_eq_foldl (layout : Layout) (skip index : Nat) (o : Outline) (lines : List Text) :
    scan layout skip o lines = (findings layout skip index lines).foldl record o := by
  induction lines generalizing skip index o with
  | nil => rfl
  | cons line rest ih =>
    cases skip with
    | succ k => exact ih k (index + 1) o
    | zero =>
      simp only [scan, findings, findingAt?, headerAt?]
      split
      · exact ih 0 (index + 1) o
      · generalize (if beginsDefinition (Text.trimRight line) = true then
          Header.read? layout.maxHeaderLines (line :: rest) else none) = header
        cases header with
        | some h => exact ih (h.2 - 1) (index + 1) _
        | none =>
          cases classLine? (Text.trimRight line) with
          | some c => exact ih 0 (index + 1) _
          | none =>
            cases variableLine? (Text.trimRight line) with
            | some name => exact ih 0 (index + 1) _
            | none => exact ih 0 (index + 1) o

theorem ofText_eq_foldl (layout : Layout) (t : Text) :
    ofText layout t = (findingsOf layout t).foldl record {} :=
  scan_eq_foldl layout 0 0 {} (Text.splitLines t)

theorem bodyMethods_eq_foldl (layout : Layout) (owner : Text) (skip index : Nat)
    (found : OrderedMap Text Symbol) (lines : List Text) :
    bodyMethods layout owner skip found lines = (methodFindings layout skip index lines).foldl
      (fun m f => m.put f.header.name (methodSymbol owner f.header)) found := by
  induction lines generalizing skip index found with
  | nil => rfl
  | cons line rest ih =>
    cases skip with
    | succ k => exact ih k (index + 1) found
    | zero =>
      simp only [bodyMethods, methodFindings, headerAt?]
      split
      · exact ih 0 (index + 1) found
      · split
        · rfl
        · split
          · rfl
          · generalize (if beginsDefinition (Text.trim line) = true then
              Header.read? layout.maxHeaderLines (line :: rest) else none) = header
            cases header with
            | some h => exact ih (h.2 - 1) (index + 1) _
            | none => exact ih 0 (index + 1) found

theorem topLevel_foldl_record (fs : List Finding) (o : Outline) :
    (fs.foldl record o).topLevel = fs.foldl (fun m f => m.put f.symbol.name f.symbol) o.topLevel := by
  induction fs generalizing o with
  | nil => rfl
  | cons f fs ih =>
    rw [List.foldl_cons, List.foldl_cons, ih]
    congr 1
    unfold record
    split <;> rfl

theorem topLevel_get?_ofText (layout : Layout) (t name : Text) :
    (ofText layout t).topLevel.get? name =
      ((findingsOf layout t).reverse.find? fun f => f.symbol.name = name).map Finding.symbol := by
  rw [ofText_eq_foldl, topLevel_foldl_record, OrderedMap.get?_foldl_put]
  exact Option.or_none

theorem get?_bodyMethods (layout : Layout) (owner name : Text) (index : Nat) (lines : List Text) :
    (bodyMethods layout owner 0 {} lines).get? name =
      ((methodFindings layout 0 index lines).reverse.find? fun f => f.header.name = name).map
        fun f => methodSymbol owner f.header := by
  rw [bodyMethods_eq_foldl layout owner 0 index, OrderedMap.get?_foldl_put]
  exact Option.or_none

theorem exists_finding_of_methods {owner : Text} {ms : OrderedMap Text Symbol} (fs : List Finding)
    (o : Outline) (h : (fs.foldl record o).methods.get? owner = some ms) :
    o.methods.get? owner = some ms ∨
      ∃ f ∈ fs, f.symbol.name = owner ∧ f.methods = ms ∧ ms.isEmpty = false := by
  induction fs generalizing o with
  | nil => exact Or.inl h
  | cons f fs ih =>
    rcases ih _ h with h | ⟨g, hg, hrest⟩
    · unfold record at h
      split at h
      · exact Or.inl h
      · rename_i hempty
        rw [OrderedMap.get?_put] at h
        split at h
        · rename_i howner
          obtain rfl := Option.some.inj h
          exact Or.inr ⟨f, by simp, howner.symm, rfl, Bool.eq_false_iff.mpr hempty⟩
        · exact Or.inl h
    · exact Or.inr ⟨g, by simp [hg], hrest⟩

theorem methods_get?_foldl_record {owner : Text} {fs : List Finding}
    (h : ∀ f ∈ fs, f.symbol.name = owner → f.methods.isEmpty = true) (o : Outline) :
    (fs.foldl record o).methods.get? owner = o.methods.get? owner := by
  induction fs generalizing o with
  | nil => rfl
  | cons f fs ih =>
    obtain ⟨hf, hfs⟩ := List.forall_mem_cons.mp h
    rw [List.foldl_cons, ih hfs, record]
    split
    · rfl
    · rename_i hempty
      rw [OrderedMap.get?_put, if_neg fun howner => hempty (hf howner.symm)]
      rfl

/-! Lines that are passed over. -/

theorem findings_append_skip (layout : Layout) (index : Nat) (xs ys : List Text) :
    findings layout xs.length index (xs ++ ys) = findings layout 0 (index + xs.length) ys := by
  induction xs generalizing index with
  | nil => rfl
  | cons x xs ih =>
    rw [List.length_cons, List.cons_append, findings, ih, Nat.add_assoc, Nat.add_comm 1]

theorem methodFindings_append_skip (layout : Layout) (index : Nat) (xs ys : List Text) :
    methodFindings layout xs.length index (xs ++ ys) =
      methodFindings layout 0 (index + xs.length) ys := by
  induction xs generalizing index with
  | nil => rfl
  | cons x xs ih =>
    rw [List.length_cons, List.cons_append, methodFindings, ih, Nat.add_assoc, Nat.add_comm 1]

theorem findings_eq_nil {layout : Layout} {lines : List Text}
    (h : ∀ line ∈ lines, Text.isTopLevel line = false) (index : Nat) :
    findings layout 0 index lines = [] := by
  induction lines generalizing index with
  | nil => rfl
  | cons line rest ih =>
    obtain ⟨hline, hrest⟩ := List.forall_mem_cons.mp h
    have hnone : findingAt? layout index line rest = none := by
      simp [findingAt?, hline]
    simp only [findings, hnone]
    exact ih hrest (index + 1)

/-! Where a finding stands. -/

/-- A line is recorded as a function, as a class or as a variable, and only if it is unindented and
neither blank nor a comment. -/
theorem findingAt?_cases {layout : Layout} {index n : Nat} {line : Text} {rest : List Text}
    {f : Finding} (h : findingAt? layout index line rest = some (f, n)) :
    Text.isSkippable line = false ∧ Text.isTopLevel line = true ∧
      ((∃ hd m, headerAt? layout Text.trimRight line rest = some (hd, m) ∧ n = m - 1 ∧
          f = { line := index, symbol := functionSymbol hd }) ∨
        (∃ name bases, classLine? (Text.trimRight line) = some (name, bases) ∧ n = 0 ∧
          f = ⟨index, classSymbol name bases, bodyMethods layout name 0 {} rest⟩) ∨
        ∃ name, variableLine? (Text.trimRight line) = some name ∧ n = 0 ∧
          f = { line := index, symbol := Symbol.binding name }) := by
  unfold findingAt? at h
  split at h
  · simp at h
  · rename_i hline
    rw [Bool.or_eq_true, not_or, Bool.not_eq_true, Bool.not_eq_true, Bool.not_eq_false'] at hline
    refine ⟨hline.1, hline.2, ?_⟩
    split at h
    · rename_i hd m hheader
      obtain ⟨rfl, rfl⟩ := Prod.mk.inj (Option.some.inj h)
      exact Or.inl ⟨hd, m, hheader, rfl, rfl⟩
    · split at h
      · rename_i name bases hclass
        obtain ⟨rfl, rfl⟩ := Prod.mk.inj (Option.some.inj h)
        exact Or.inr (Or.inl ⟨name, bases, hclass, rfl, rfl⟩)
      · obtain ⟨name, hname, heq⟩ := Option.map_eq_some_iff.mp h
        obtain ⟨rfl, rfl⟩ := Prod.mk.inj heq
        exact Or.inr (Or.inr ⟨name, hname, rfl, rfl⟩)

theorem findingAt?_line {layout : Layout} {index n : Nat} {line : Text} {rest : List Text}
    {f : Finding} (h : findingAt? layout index line rest = some (f, n)) : f.line = index := by
  obtain ⟨-, -, ⟨_, _, -, -, rfl⟩ | ⟨_, _, -, -, rfl⟩ | ⟨_, -, -, rfl⟩⟩ := findingAt?_cases h <;> rfl

theorem exists_findingAt?_of_mem {layout : Layout} {f : Finding} {skip index : Nat} {lines : List Text}
    (h : f ∈ findings layout skip index lines) :
    ∃ i line rest n, f.line = index + i ∧ lines.drop i = line :: rest ∧
      findingAt? layout f.line line rest = some (f, n) := by
  induction lines generalizing skip index with
  | nil => simp [findings] at h
  | cons line rest ih =>
    have hlater {skip : Nat} (h : f ∈ findings layout skip (index + 1) rest) :
        ∃ i line' rest' n, f.line = index + i ∧ (line :: rest).drop i = line' :: rest' ∧
          findingAt? layout f.line line' rest' = some (f, n) := by
      obtain ⟨i, line', rest', n, hline, hdrop, hat⟩ := ih h
      exact ⟨i + 1, line', rest', n, by omega, by simpa using hdrop, hat⟩
    cases skip with
    | succ k => exact hlater h
    | zero =>
      rw [findings] at h
      split at h
      · rename_i g n hat
        rcases List.mem_cons.mp h with rfl | h
        · have hline := findingAt?_line hat
          exact ⟨0, line, rest, n, hline, rfl, hline ▸ hat⟩
        · exact hlater h
      · exact hlater h

/-- The headers recorded in the body of a finding among the lines; only a class has a body. -/
def bodyFindings (layout : Layout) (lines : List Text) (f : Finding) : List MethodFinding :=
  match f.symbol.kind with
  | .classDecl => methodFindings layout 0 (f.line + 1) (lines.drop (f.line + 1))
  | _ => []

theorem bodyFindings_of_class {layout : Layout} {f : Finding} (h : f.symbol.kind = .classDecl)
    (lines : List Text) :
    bodyFindings layout lines f = methodFindings layout 0 (f.line + 1) (lines.drop (f.line + 1)) := by
  rw [bodyFindings, h]

theorem class_of_mem_bodyFindings {layout : Layout} {lines : List Text} {f : Finding} {g : MethodFinding}
    (h : g ∈ bodyFindings layout lines f) : f.symbol.kind = .classDecl := by
  unfold bodyFindings at h
  split at h
  · assumption
  · cases h

/-- A finding in some lines is made of the line that it names and of the lines below. -/
theorem exists_line_of_mem {layout : Layout} {f : Finding} {lines : List Text}
    (h : f ∈ findings layout 0 0 lines) :
    ∃ line n, lines.drop f.line = line :: lines.drop (f.line + 1) ∧
      findingAt? layout f.line line (lines.drop (f.line + 1)) = some (f, n) := by
  obtain ⟨i, line, rest, n, hline, hdrop, hat⟩ := exists_findingAt?_of_mem h
  rw [Nat.zero_add] at hline
  have hrest : lines.drop (f.line + 1) = rest := by
    rw [hline, ← List.drop_drop, hdrop]
    rfl
  rw [← hrest] at hdrop hat
  exact ⟨line, n, hline ▸ hdrop, hat⟩

theorem methods_eq_foldl_of_mem {layout : Layout} {f : Finding} {lines : List Text}
    (h : f ∈ findings layout 0 0 lines) :
    f.methods = (bodyFindings layout lines f).foldl
      (fun m g => m.put g.header.name (methodSymbol f.symbol.name g.header)) {} := by
  obtain ⟨line, n, -, hat⟩ := exists_line_of_mem h
  generalize hindex : f.line = index at hat
  obtain ⟨-, -, ⟨hd, m, -, -, rfl⟩ | ⟨name, bases, -, -, rfl⟩ | ⟨name, -, -, rfl⟩⟩ := findingAt?_cases hat
  · rfl
  · exact bodyMethods_eq_foldl layout name 0 (index + 1) {} _
  · rfl

/-- A line of a class body that is not passed over as part of a header, and below which the body goes on:
it is blank, a comment or indented, and it adds a finding exactly if a header starts on it. -/
theorem methodFindings_cons_cases {layout : Layout} {index : Nat} {line : Text} {rest : List Text}
    (h : methodFindings layout 0 index (line :: rest) ≠ []) :
    (Text.isSkippable line = true ∨ Text.isTopLevel line = false) ∧
      (methodFindings layout 0 index (line :: rest) = methodFindings layout 0 (index + 1) rest ∨
        ∃ hd n, Text.isTopLevel line = false ∧ headerAt? layout Text.trim line rest = some (hd, n) ∧
          methodFindings layout 0 index (line :: rest) =
            ⟨index, hd, n⟩ :: methodFindings layout (n - 1) (index + 1) rest) := by
  rw [methodFindings] at h ⊢
  split at h
  · rename_i hskippable
    rw [if_pos hskippable]
    exact ⟨Or.inl hskippable, Or.inl rfl⟩
  · rename_i hskippable
    rw [if_neg hskippable]
    split at h
    · exact absurd rfl h
    · rename_i htop
      rw [if_neg htop]
      rw [Bool.not_eq_true] at htop
      split at h
      · exact absurd rfl h
      · rename_i hindent
        rw [if_neg hindent]
        refine ⟨Or.inr htop, ?_⟩
        split
        · rename_i hd n hheader
          exact Or.inr ⟨hd, n, htop, hheader, rfl⟩
        · exact Or.inl rfl

theorem exists_headerAt?_of_mem {layout : Layout} {f : MethodFinding} {skip index : Nat}
    {lines : List Text} (h : f ∈ methodFindings layout skip index lines) :
    ∃ i line rest, f.line = index + i ∧ lines.drop i = line :: rest ∧ Text.isTopLevel line = false ∧
      headerAt? layout Text.trim line rest = some (f.header, f.lineCount) := by
  induction lines generalizing skip index with
  | nil => simp [methodFindings] at h
  | cons line rest ih =>
    have hlater {skip : Nat} (h : f ∈ methodFindings layout skip (index + 1) rest) :
        ∃ i line' rest', f.line = index + i ∧ (line :: rest).drop i = line' :: rest' ∧
          Text.isTopLevel line' = false ∧
          headerAt? layout Text.trim line' rest' = some (f.header, f.lineCount) := by
      obtain ⟨i, line', rest', hline, hdrop, hat⟩ := ih h
      exact ⟨i + 1, line', rest', by omega, by simpa using hdrop, hat⟩
    cases skip with
    | succ k => exact hlater h
    | zero =>
      obtain ⟨-, heq | ⟨hd, n, htop, hheader, heq⟩⟩ :=
        methodFindings_cons_cases (List.ne_nil_of_mem h)
      · rw [heq] at h
        exact hlater h
      · rw [heq] at h
        rcases List.mem_cons.mp h with rfl | h
        · exact ⟨0, line, rest, rfl, rfl, htop, hheader⟩
        · exact hlater h

/-- The lines with the given index continue a header of the findings. -/
def IsContinuation (fs : List MethodFinding) (k : Nat) : Prop :=
  ∃ f ∈ fs, f.line < k ∧ k < f.line + f.lineCount

/-- An unindented line above a finding of a class body is a comment or continues a header: any other
one ends the body. -/
theorem skippable_or_continuation {layout : Layout} {f : MethodFinding} {skip index k : Nat}
    {lines : List Text} {line : Text} (hf : f ∈ methodFindings layout skip index lines)
    (hline : lines[k]? = some line) (hskip : skip ≤ k) (hk : index + k < f.line)
    (htop : Text.isTopLevel line = true) :
    Text.isSkippable line = true ∨
      IsContinuation (methodFindings layout skip index lines) (index + k) := by
  induction lines generalizing skip index k with
  | nil => simp at hline
  | cons first rest ih =>
    -- One line further down, where nothing but the counting has changed.
    have hlater {skip : Nat} (hf : f ∈ methodFindings layout skip (index + 1) rest) (j : Nat)
        (hj : k = j + 1) (hle : skip ≤ j) :
        Text.isSkippable line = true ∨
          IsContinuation (methodFindings layout skip (index + 1) rest) (index + k) := by
      subst hj
      have hrest : rest[j]? = some line := by simpa using hline
      have hstep := ih hf hrest hle (by omega)
      rwa [show index + (j + 1) = index + 1 + j by omega]
    cases skip with
    | succ s =>
      obtain ⟨j, rfl⟩ : ∃ j, k = j + 1 := ⟨k - 1, by omega⟩
      exact hlater hf j rfl (by omega)
    | zero =>
      obtain ⟨hpassed, hcases⟩ := methodFindings_cons_cases (List.ne_nil_of_mem hf)
      cases k with
      | zero =>
        obtain rfl : first = line := by simpa using hline
        exact Or.inl (hpassed.resolve_right (by simp [htop]))
      | succ j =>
        rcases hcases with heq | ⟨hd, n, -, -, heq⟩
        · rw [heq] at hf ⊢
          exact hlater hf j rfl (by omega)
        · rw [heq] at hf ⊢
          rcases List.mem_cons.mp hf with rfl | hf
          · exact absurd hk (by simp only; omega)
          · by_cases hj : n - 1 ≤ j
            · rcases hlater hf j rfl hj with h | ⟨g, hg, hbetween⟩
              · exact Or.inl h
              · exact Or.inr ⟨g, List.mem_cons_of_mem _ hg, hbetween⟩
            · -- The line is still part of the header that starts here.
              refine Or.inr ⟨⟨index, hd, n⟩, List.mem_cons_self, ?_⟩
              simp only
              omega

end Outline
end EditorInsight
