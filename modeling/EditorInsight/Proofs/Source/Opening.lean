import EditorInsight.Proofs.Text.Blank
import EditorInsight.Source.Declaration

/-!
# How a header opens

The opening `[async ]def name(` of a header, with the blank runs between its words written out. The
reader of headers finds exactly these openings. Collapsing blank runs turns an opening into one with
single spaces and keeps its name, and a search for that name finds it.
-/

namespace EditorInsight

open Text

structure Opening where
  isAsync : Bool
  afterAsync : Text
  afterDef : Text
  name : Text
  afterName : Text
  afterAsync_blank : ∀ c ∈ afterAsync, isBlank c = true
  afterAsync_ne : afterAsync ≠ []
  afterDef_blank : ∀ c ∈ afterDef, isBlank c = true
  afterDef_ne : afterDef ≠ []
  isIdentifier_name : isIdentifier name = true
  afterName_blank : ∀ c ∈ afterName, isBlank c = true

namespace Opening

def core (o : Opening) : Text :=
  ("def" : Text) ++ (o.afterDef ++ (o.name ++ (o.afterName ++ ['('])))

def text (o : Opening) : Text :=
  if o.isAsync then ("async" : Text) ++ (o.afterAsync ++ o.core) else o.core

def plain (isAsync : Bool) (name : Text) (h : isIdentifier name = true) : Opening where
  isAsync := isAsync
  afterAsync := [' ']
  afterDef := [' ']
  name := name
  afterName := []
  afterAsync_blank := isBlank_of_mem_space
  afterAsync_ne := space_ne_nil
  afterDef_blank := isBlank_of_mem_space
  afterDef_ne := space_ne_nil
  isIdentifier_name := h
  afterName_blank := isBlank_of_mem_nil

def collapsed (o : Opening) : Opening :=
  { plain o.isAsync o.name o.isIdentifier_name with
    afterName := if o.afterName = [] then [] else [' ']
    afterName_blank := by split <;> decide }

theorem collapsed_plain (isAsync : Bool) (name : Text) (h : isIdentifier name = true) :
    (plain isAsync name h).collapsed = plain isAsync name h := by
  simp [collapsed, plain]

theorem core_append (o : Opening) (r : Text) :
    o.core ++ r = ("def" : Text) ++ (o.afterDef ++ (o.name ++ (o.afterName ++ '(' :: r))) := by
  simp [core]

theorem exists_name_cons (o : Opening) :
    ∃ c r, o.name = c :: r ∧ isBlank c = false ∧ isIdentStart c = true := by
  have h := o.isIdentifier_name
  cases hname : o.name with
  | nil => simp [hname, isIdentifier] at h
  | cons c r =>
    refine ⟨c, r, rfl, ?_, ?_⟩
    · exact isBlank_of_mem_identifier h (by simp [hname])
    · rw [hname, isIdentifier, Bool.and_eq_true] at h
      exact h.1

/-! Reading an opening. -/

theorem stripAsync_core (o : Opening) (r : Text) :
    Header.stripAsync (o.core ++ r) = (false, o.core ++ r) := by
  rw [core_append]
  rfl

theorem stripAsync_text (o : Opening) (r : Text) :
    Header.stripAsync (o.text ++ r) = (o.isAsync, o.core ++ r) := by
  unfold text
  split
  · rename_i h
    have hskip : skipBlanks1? (o.afterAsync ++ (o.core ++ r)) = some (o.core ++ r) := by
      rw [core_append]
      exact skipBlanks1?_blanks_append o.afterAsync_ne o.afterAsync_blank (by decide) _
    simp only [Header.stripAsync, List.append_assoc, after?_append, Option.bind_some, hskip, h]
  · rename_i h
    rw [stripAsync_core, Bool.eq_false_iff.mpr h]

theorem afterName_head (o : Opening) (r : Text) :
    ∀ c ∈ (o.afterName ++ '(' :: r).head?, isIdentPart c = false := by
  intro c hc
  cases h : o.afterName with
  | nil =>
    rw [h] at hc
    cases hc
    decide
  | cons d b =>
    rw [h] at hc
    cases hc
    have hblank := o.afterName_blank c (by simp [h])
    by_contra hpart
    rw [Bool.not_eq_false] at hpart
    rw [isBlank_of_isIdentPart hpart] at hblank
    contradiction

theorem opening?_text_append (o : Opening) (r : Text) :
    Header.opening? (o.text ++ r) = some (o.isAsync, o.name, r) := by
  obtain ⟨c, n, hname, hc, -⟩ := o.exists_name_cons
  have hskip : skipBlanks1? (o.afterDef ++ (o.name ++ (o.afterName ++ '(' :: r))) =
      some (o.name ++ (o.afterName ++ '(' :: r)) := by
    rw [hname, List.cons_append]
    exact skipBlanks1?_blanks_append o.afterDef_ne o.afterDef_blank hc _
  have hparen : trimLeft (o.afterName ++ '(' :: r) = '(' :: r := by
    rw [trimLeft_blanks_append o.afterName_blank, trimLeft_cons (by decide)]
  simp only [Header.opening?, stripAsync_text, core_append, after?_append, Option.bind_some, hskip,
    identifier?_append o.isIdentifier_name (o.afterName_head r), hparen]

theorem exists_stripAsync {t r : Text} {isAsync : Bool} (h : Header.stripAsync t = (isAsync, r)) :
    ∃ b, b ≠ [] ∧ (∀ c ∈ b, isBlank c = true) ∧
      t = if isAsync then ("async" : Text) ++ (b ++ r) else r := by
  unfold Header.stripAsync at h
  split at h
  · rename_i u hu
    obtain ⟨v, hv, hskip⟩ := Option.bind_eq_some_iff.mp hu
    obtain ⟨b, hne, hb, rfl⟩ := skipBlanks1?_eq_some hskip
    obtain ⟨rfl, rfl⟩ := Prod.mk.inj h
    exact ⟨b, hne, hb, by rw [after?_eq_some_iff.mp hv]; rfl⟩
  · obtain ⟨rfl, rfl⟩ := Prod.mk.inj h
    exact ⟨[' '], space_ne_nil, isBlank_of_mem_space, rfl⟩

/-- Whatever the reader takes for an opening is one. -/
theorem exists_of_opening? {t name r : Text} {isAsync : Bool}
    (h : Header.opening? t = some (isAsync, name, r)) :
    ∃ o : Opening, o.isAsync = isAsync ∧ o.name = name ∧ t = o.text ++ r := by
  unfold Header.opening? at h
  cases hs : Header.stripAsync t with
  | mk a u =>
    rw [hs] at h
    obtain ⟨b₁, hne₁, hb₁, ht⟩ := exists_stripAsync hs
    simp only at h
    split at h
    · simp at h
    · rename_i ident rest hident
      obtain ⟨v, hv, hident⟩ := Option.bind_eq_some_iff.mp hident
      obtain ⟨w, hw, hskip⟩ := Option.bind_eq_some_iff.mp hv
      obtain ⟨b₂, hne₂, hb₂, rfl⟩ := skipBlanks1?_eq_some hskip
      obtain ⟨rfl, hname, -⟩ := identifier?_eq_some hident
      split at h
      · rename_i inside hparen
        obtain ⟨b₃, hb₃, hrest⟩ := exists_blanks_trimLeft rest
        rw [hparen] at hrest
        obtain ⟨rfl, hn, hr⟩ : a = isAsync ∧ ident = name ∧ inside = r := by simpa using h
        subst hn hr
        refine ⟨⟨a, b₁, b₂, ident, b₃, hb₁, hne₁, hb₂, hne₂, hname, hb₃⟩, rfl, rfl, ?_⟩
        rw [ht, after?_eq_some_iff.mp hw, hrest]
        cases a <;> simp [text, core]
      · simp at h

/-! Collapsing. -/

theorem text_plain_append (isAsync : Bool) (name : Text) (h : isIdentifier name = true) (r : Text) :
    (plain isAsync name h).text ++ r =
      (if isAsync then ("async def " : Text) else "def ") ++ (name ++ '(' :: r) := by
  cases isAsync <;> simp [plain, text, core]

theorem collapseFrom_core_append (o : Opening) (r : Text) :
    collapseFrom false (o.core ++ r) = o.collapsed.core ++ collapseFrom false r := by
  obtain ⟨c, n, hname, hc, -⟩ := o.exists_name_cons
  have hword : ∀ c ∈ o.name, isBlank c = false :=
    fun c hc => isBlank_of_mem_identifier o.isIdentifier_name hc
  have hn : ∀ c ∈ n, isBlank c = false := fun d hd => hword d (by simp [hname, hd])
  have hafter : collapseFrom false (o.afterName ++ '(' :: r) =
      o.collapsed.afterName ++ '(' :: collapseFrom false r := by
    by_cases hnil : o.afterName = []
    · rw [hnil, List.nil_append, collapseFrom_cons (by decide)]
      simp [collapsed, hnil]
    · rw [collapseFrom_blanks_append hnil o.afterName_blank (by decide)]
      simp [collapsed, hnil]
  rw [core_append, core_append, collapseFrom_word_append (by decide), hname, List.cons_append,
    collapseFrom_blanks_append o.afterDef_ne o.afterDef_blank hc, collapseFrom_word_append hn, hafter]
  simp [collapsed, plain, hname]

theorem collapseFrom_text_append (o : Opening) (r : Text) :
    collapseFrom false (o.text ++ r) = o.collapsed.text ++ collapseFrom false r := by
  unfold text
  have hcore := o.collapseFrom_core_append r
  split
  · rename_i h
    have hasync : o.collapsed.isAsync = true := h
    rw [if_pos hasync, List.append_assoc, List.append_assoc, collapseFrom_word_append (by decide)]
    rw [core_append] at hcore ⊢
    change collapseFrom false ('d' :: _) = _ at hcore
    change _ ++ collapseFrom false (o.afterAsync ++ 'd' :: _) = _
    rw [collapseFrom_blanks_append o.afterAsync_ne o.afterAsync_blank (by decide),
      ← collapseFrom_cons (by decide) false, hcore]
    simp [collapsed, plain]
  · rename_i h
    have hasync : ¬ o.collapsed.isAsync = true := h
    rw [if_neg hasync, hcore]

theorem exists_text_cons (o : Opening) : ∃ c r, o.text = c :: r ∧ isBlank c = false := by
  unfold text
  split
  · exact ⟨'a', _, rfl, by decide⟩
  · exact ⟨'d', _, rfl, by decide⟩

theorem trimRight_text_append (o : Opening) (r : Text) :
    trimRight (o.text ++ r) = o.text ++ trimRight r := by
  obtain ⟨u, hu⟩ : ∃ u, o.text = u ++ ['('] := by
    unfold text core
    split
    · exact ⟨("async" : Text) ++ (o.afterAsync ++ (("def" : Text) ++
        (o.afterDef ++ (o.name ++ o.afterName)))), by simp⟩
    · exact ⟨("def" : Text) ++ (o.afterDef ++ (o.name ++ o.afterName)), by simp⟩
  rw [hu, List.append_assoc, List.append_assoc, List.singleton_append, List.singleton_append,
    trimRight_append_cons (by decide)]

/-- Normalizing blanks keeps an opening at the start of a text, whatever follows it. -/
theorem normalizeBlanks_text_append (o : Opening) (r : Text) :
    normalizeBlanks (o.text ++ r) = o.collapsed.text ++ trimRight (collapseFrom false r) := by
  obtain ⟨c, u, hc, hblank⟩ := o.collapsed.exists_text_cons
  rw [normalizeBlanks, collapseFrom_text_append, trim, hc, List.cons_append, trimLeft_cons hblank,
    ← List.cons_append, ← hc, trimRight_text_append]

theorem isFunction_text_append (o : Opening) (r : Text) :
    Declaration.isFunction o.name (o.text ++ r) = true := by
  have hfollowed : Declaration.isFollowedBy '(' o.name (o.name ++ (o.afterName ++ '(' :: r)) = true := by
    rw [Declaration.isFollowedBy, after?_append]
    exact afterBlanks_eq_true_iff.mpr ⟨o.afterName, '(' :: r, o.afterName_blank, rfl, by simp⟩
  have hblank := o.afterDef_blank
  cases hdef : o.afterDef with
  | nil => exact absurd hdef o.afterDef_ne
  | cons c b =>
    rw [hdef] at hblank
    obtain ⟨hc, hb⟩ := List.forall_mem_cons.mp hblank
    simp only [Declaration.isFunction, stripAsync_text, core_append, after?_append, hdef,
      List.cons_append, hc, Bool.true_and]
    exact afterBlanks_eq_true_iff.mpr ⟨b, _, hb, rfl, hfollowed⟩

theorem closing_not_mem_text (o : Opening) : ')' ∉ o.text := by
  have hblanks {b : Text} (hb : ∀ c ∈ b, isBlank c = true) : ')' ∉ b :=
    fun hmem => absurd (hb _ hmem) (by decide)
  have hname := not_mem_identifier o.isIdentifier_name (c := ')') (by decide)
  have hcore : ')' ∉ o.core := by
    simp [core, hblanks o.afterDef_blank, hblanks o.afterName_blank, hname]
  unfold text
  split
  · simp [hblanks o.afterAsync_blank, hcore]
  · exact hcore

theorem isAsync_iff (o : Opening) (r : Text) : o.isAsync = true ↔ ("async" : Text) <+: o.text ++ r := by
  unfold text
  cases o.isAsync with
  | true => exact ⟨fun _ => ⟨o.afterAsync ++ o.core ++ r, by simp⟩, fun _ => rfl⟩
  | false =>
    refine ⟨nofun, fun ⟨s, hs⟩ => ?_⟩
    cases hs

end Opening

namespace Header

/-! A collected text begins with the first of its lines. -/

theorem exists_append_of_collectFrom {t : Text} {used : Nat} {depth budget : Int} {lines : List Text}
    {c : CollectedHeader} (h : collectFrom (some t) used depth budget lines = some c) :
    ∃ w, c.text = t ++ w := by
  induction lines generalizing t used depth budget with
  | nil => simp [collectFrom] at h
  | cons line rest ih =>
    simp only [collectFrom] at h
    split at h
    · obtain rfl := Option.some.inj h
      exact ⟨[' '] ++ trim line, by simp⟩
    · split at h
      · simp at h
      · obtain ⟨w, hw⟩ := ih h
        exact ⟨[' '] ++ trim line ++ w, by simp [hw]⟩

theorem exists_append_of_collect? {maxLines : Int} {line : Text} {rest : List Text}
    {c : CollectedHeader} (h : collect? maxLines (line :: rest) = some c) :
    isStart line = true ∧ ∃ w, c.text = trim line ++ w := by
  simp only [collect?] at h
  split at h
  · rename_i hstart
    refine ⟨hstart, ?_⟩
    simp only [collectFrom] at h
    split at h
    · obtain rfl := Option.some.inj h
      exact ⟨[], by simp⟩
    · split at h
      · simp at h
      · exact exists_append_of_collectFrom h
  · simp at h

/-- A collected text opens as the first of its lines does. -/
theorem exists_opening_of_collect? {maxLines : Int} {line : Text} {rest : List Text}
    {c : CollectedHeader} (h : collect? maxLines (line :: rest) = some c) :
    ∃ (o : Opening) (r u : Text), trimLeft line = o.text ++ r ∧ c.text = o.text ++ u := by
  obtain ⟨hstart, w, hw⟩ := exists_append_of_collect? h
  obtain ⟨⟨isAsync, name, r⟩, hopening⟩ := Option.isSome_iff_exists.mp hstart
  obtain ⟨o, -, -, ho⟩ := Opening.exists_of_opening? hopening
  refine ⟨o, r, trimRight r ++ w, ho, ?_⟩
  rw [hw, trim, ho, Opening.trimRight_text_append, List.append_assoc]

theorem exists_opening_of_read? {maxLines : Int} {line : Text} {rest : List Text} {hd : Header} {n : Nat}
    (h : read? maxLines (line :: rest) = some (hd, n)) :
    ∃ (o : Opening) (r : Text), trimLeft line = o.text ++ r ∧ hd.isAsync = o.isAsync ∧
      hd.name = o.name := by
  simp only [read?] at h
  split at h
  · simp at h
  · rename_i c hcollect
    obtain ⟨o, r, u, ho, hu⟩ := exists_opening_of_collect? hcollect
    refine ⟨o, r, ho, ?_⟩
    obtain ⟨parsed, hparse, heq⟩ := Option.map_eq_some_iff.mp h
    obtain ⟨rfl, -⟩ := Prod.mk.inj heq
    rw [hu, parse?, Opening.normalizeBlanks_text_append, Opening.opening?_text_append] at hparse
    simp only at hparse
    split at hparse
    · simp at hparse
    · obtain rfl := Option.some.inj hparse
      exact ⟨rfl, rfl⟩

theorem isFunction_of_read? {maxLines : Int} {line : Text} {rest : List Text} {hd : Header} {n : Nat}
    (h : read? maxLines (line :: rest) = some (hd, n)) :
    Declaration.isFunction hd.name (trim line) = true := by
  obtain ⟨o, r, ho, -, hname⟩ := exists_opening_of_read? h
  rw [hname, trim, ho, Opening.trimRight_text_append]
  exact o.isFunction_text_append _

end Header
end EditorInsight
