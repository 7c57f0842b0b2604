import Mathlib.Data.Nat.Find
import EditorInsight.Proofs.Source.Findings

/-!
# What is indexed can be located

The outline of a text and the search for declarations read the same lines in different ways. Here the
two are compared: every symbol of an outline is located, on the line that the outline has it from unless
an earlier line declares it too. A method is located unless an unindented line, which the outline reads
past, stands between its class and its definition.
-/

namespace EditorInsight

open Text

namespace Declaration

/-- The line with the index is unindented and satisfies `p` once trailing blanks are dropped. -/
def MatchesAt (p : Text → Bool) (lines : List Text) (i : Nat) : Prop :=
  ∃ line, lines[i]? = some line ∧ isIndented line = false ∧ p (trimRight line) = true

instance {p : Text → Bool} {lines : List Text} {i : Nat} : Decidable (MatchesAt p lines i) :=
  match h : lines[i]? with
  | none => isFalse fun ⟨_, hline, _⟩ => by simp [h] at hline
  | some line => decidable_of_iff (isIndented line = false ∧ p (trimRight line) = true)
      (by simp [MatchesAt, h])

theorem MatchesAt.lt_length {p : Text → Bool} {lines : List Text} {i : Nat}
    (h : MatchesAt p lines i) : i < lines.length := by
  obtain ⟨line, hline, -⟩ := h
  exact (List.getElem?_eq_some_iff.mp hline).1

/-! The search for an unindented line. -/

theorem matchesAt_cons_succ {p : Text → Bool} {line : Text} {rest : List Text} {i : Nat} :
    MatchesAt p (line :: rest) (i + 1) ↔ MatchesAt p rest i := by
  simp [MatchesAt]

theorem matchesAt_cons_zero {p : Text → Bool} {line : Text} {rest : List Text} :
    MatchesAt p (line :: rest) 0 ↔ (!isIndented line && p (trimRight line)) = true := by
  simp [MatchesAt]

theorem findTopLevel?_eq_some {p : Text → Bool} {index i : Nat} {lines below : List Text}
    (h : findTopLevel? p index lines = some (i, below)) :
    ∃ j, i = index + j ∧ below = lines.drop (j + 1) ∧ MatchesAt p lines j ∧
      ∀ k, MatchesAt p lines k → j ≤ k := by
  induction lines generalizing index with
  | nil => simp [findTopLevel?] at h
  | cons line rest ih =>
    rw [findTopLevel?] at h
    split at h
    · rename_i hline
      obtain ⟨rfl, rfl⟩ := Prod.mk.inj (Option.some.inj h)
      exact ⟨0, rfl, rfl, matchesAt_cons_zero.mpr hline, fun k _ => Nat.zero_le k⟩
    · rename_i hline
      obtain ⟨j, rfl, rfl, hj, hfirst⟩ := ih h
      refine ⟨j + 1, by omega, rfl, matchesAt_cons_succ.mpr hj, ?_⟩
      intro k hk
      cases k with
      | zero => exact absurd (matchesAt_cons_zero.mp hk) hline
      | succ k => exact Nat.succ_le_succ (hfirst k (matchesAt_cons_succ.mp hk))

theorem exists_findTopLevel? {p : Text → Bool} {lines : List Text} {j : Nat} (index : Nat)
    (h : MatchesAt p lines j) : ∃ found, findTopLevel? p index lines = some found := by
  induction lines generalizing index j with
  | nil => simp [MatchesAt] at h
  | cons line rest ih =>
    rw [findTopLevel?]
    split
    · exact ⟨_, rfl⟩
    · rename_i hline
      cases j with
      | zero => exact absurd (matchesAt_cons_zero.mp h) hline
      | succ j => exact ih (index + 1) (matchesAt_cons_succ.mp h)

/-! Whatever the scan of a module records is declared on its line. -/

theorem isIndented_of_isTopLevel {line : Text} (h : isTopLevel line = true) :
    isIndented line = false := by
  cases line with
  | nil => rfl
  | cons c r => simpa [isTopLevel, isIndented] using h

theorem trim_of_isTopLevel {line : Text} (h : isTopLevel line = true) : trim line = trimRight line := by
  rw [trim, trimLeft_of_isTopLevel h]

/-- A blank run and a mark that is no word character do not start a word. -/
theorem startsWord_of_trimLeft {r u : Text} {c : Char} (hc : isWordChar c = false)
    (h : trimLeft r = c :: u) : startsWord r = false := by
  obtain ⟨b, hb, hr⟩ := exists_blanks_trimLeft r
  rw [hr, h]
  cases b with
  | nil => exact hc
  | cons d b => exact isWordChar_of_isBlank (hb d (by simp))

/-- Whatever the reader takes for the line of a class starts with `class` and the name of the class as
a word of its own. -/
theorem exists_of_classLine? {line name bases : Text} (h : Outline.classLine? line = some (name, bases)) :
    ∃ b r, b ≠ [] ∧ (∀ c ∈ b, isBlank c = true) ∧ line = ("class" : Text) ++ (b ++ (name ++ r)) ∧
      isIdentifier name = true ∧ startsWord r = false := by
  unfold Outline.classLine? at h
  split at h
  · simp at h
  · rename_i ident r hident
    obtain ⟨v, hv, hident⟩ := Option.bind_eq_some_iff.mp hident
    obtain ⟨w, hw, hskip⟩ := Option.bind_eq_some_iff.mp hv
    obtain ⟨b, hne, hb, rfl⟩ := skipBlanks1?_eq_some hskip
    obtain ⟨rfl, hname, -⟩ := identifier?_eq_some hident
    split at h
    · rename_i u hcolon
      obtain ⟨rfl, -⟩ := Prod.mk.inj (Option.some.inj h)
      exact ⟨b, r, hne, hb, after?_eq_some_iff.mp hw, hname,
        startsWord_of_trimLeft (by decide) hcolon⟩
    · rename_i inside hparen
      obtain ⟨_, -, heq⟩ := Option.map_eq_some_iff.mp h
      obtain ⟨rfl, -⟩ := Prod.mk.inj heq
      exact ⟨b, r, hne, hb, after?_eq_some_iff.mp hw, hname,
        startsWord_of_trimLeft (by decide) hparen⟩
    · simp at h

theorem isClass_of_classLine? {line name bases : Text}
    (h : Outline.classLine? line = some (name, bases)) : isClass name line = true := by
  obtain ⟨b, r, hne, hb, rfl, hname, hr⟩ := exists_of_classLine? h
  obtain ⟨last, hlast, hpart⟩ := exists_getLast?_identifier hname
  cases b with
  | nil => exact absurd rfl hne
  | cons c b =>
    obtain ⟨hc, hb⟩ := List.forall_mem_cons.mp hb
    simp only [isClass, after?_append, List.cons_append, hc, Bool.true_and]
    refine afterBlanks_eq_true_iff.mpr ⟨b, name ++ r, hb, rfl, ?_⟩
    simp [isBoundary, hlast, isWordChar_of_isIdentPart hpart, hr]

theorem isBinding_of_variableLine? {line name : Text} (h : Outline.variableLine? line = some name) :
    isBinding name line = true := by
  unfold Outline.variableLine? at h
  split at h
  · simp at h
  · rename_i ident r hident
    obtain ⟨rfl, -, -⟩ := identifier?_eq_some hident
    split at h
    · rename_i heq
      obtain rfl := Option.some.inj h
      obtain ⟨b, hb, hr⟩ := exists_blanks_trimLeft r
      simp only [isBinding, isFollowedBy, after?_append]
      exact afterBlanks_eq_true_iff.mpr ⟨b, trimLeft r, hb, hr, by simpa using heq⟩
    · simp at h

theorem declares_of_findingAt? {layout : Outline.Layout} {index n : Nat} {line : Text}
    {rest : List Text} {f : Outline.Finding}
    (h : Outline.findingAt? layout index line rest = some (f, n)) :
    declares f.symbol.kind f.symbol.name (trimRight line) = true := by
  obtain ⟨-, htop, ⟨hd, m, hheader, -, rfl⟩ | ⟨name, bases, hclass, -, rfl⟩ | ⟨name, hname, -, rfl⟩⟩ :=
    Outline.findingAt?_cases h
  · unfold Outline.headerAt? at hheader
    split at hheader
    · have hfunction := Header.isFunction_of_read? hheader
      rwa [trim_of_isTopLevel htop] at hfunction
    · simp at hheader
  · exact isClass_of_classLine? hclass
  · exact isBinding_of_variableLine? hname

theorem matchesAt_of_mem_findingsOf {layout : Outline.Layout} {t : Text} {f : Outline.Finding}
    (h : f ∈ Outline.findingsOf layout t) :
    MatchesAt (declares f.symbol.kind f.symbol.name) (splitLines t) f.line := by
  obtain ⟨i, line, rest, n, hline, hdrop, hat⟩ := Outline.exists_findingAt?_of_mem h
  rw [Nat.zero_add] at hline
  refine ⟨line, ?_, ?_, declares_of_findingAt? hat⟩
  · rw [hline, ← List.head?_drop, hdrop]
    rfl
  · exact isIndented_of_isTopLevel (Outline.findingAt?_cases hat).2.1

/-- The last finding under a name: what the outline has the name from. -/
def lastFinding? (layout : Outline.Layout) (t name : Text) : Option Outline.Finding :=
  (Outline.findingsOf layout t).reverse.find? fun f => f.symbol.name = name

theorem locate?_topLevel {kind : SymbolKind} (h : ∀ owner, kind ≠ .method owner) (t name : Text) :
    locate? t kind name =
      (findTopLevel? (declares kind name) 0 (splitLines t)).map fun found => ⟨found.1, 0⟩ := by
  cases kind with
  | method owner => exact absurd rfl (h owner)
  | function => rfl
  | classDecl => rfl
  | binding => rfl

/-- Every symbol of an outline is located at the start of an unindented line that declares it, not below
the line that the outline has it from, and on that line if no other one declares it. -/
theorem topLevel_symbol_located (layout : Outline.Layout) (t name : Text) (s : Symbol)
    (h : (Outline.ofText layout t).topLevel.get? name = some s) :
    ∃ f, lastFinding? layout t name = some f ∧ f.symbol = s ∧
      ∃ i, locate? t s.kind name = some ⟨i, 0⟩ ∧ i ≤ f.line ∧
        MatchesAt (declares s.kind name) (splitLines t) i ∧
        ((∀ j, MatchesAt (declares s.kind name) (splitLines t) j → j = f.line) → i = f.line) := by
  rw [Outline.topLevel_get?_ofText] at h
  obtain ⟨f, hlast, rfl⟩ := Option.map_eq_some_iff.mp h
  have hmem : f ∈ Outline.findingsOf layout t :=
    List.mem_reverse.mp (List.mem_of_find?_eq_some hlast)
  have hname : f.symbol.name = name := by simpa using List.find?_some hlast
  have hmatch := matchesAt_of_mem_findingsOf hmem
  rw [hname] at hmatch
  obtain ⟨⟨i, below⟩, hfound⟩ := exists_findTopLevel? 0 hmatch
  obtain ⟨j, hij, -, hj, hfirst⟩ := findTopLevel?_eq_some hfound
  obtain rfl : i = j := by omega
  refine ⟨f, hlast, rfl, i, ?_, hfirst _ hmatch, hj, fun hunique => hunique i hj⟩
  have hkind : ∀ owner, f.symbol.kind ≠ .method owner := by
    rintro owner hmethod
    obtain ⟨line, -, -, hdeclares⟩ := hmatch
    rw [hmethod] at hdeclares
    simp [declares] at hdeclares
  rw [locate?_topLevel hkind, hfound]
  rfl

/-- A function that is declared twice: the outline has it from the second place, the search finds the
first. -/
theorem topLevel_symbol_located_redefined :
    let t : Text := "def f(a): pass\nlimit = 1\ndef f(\n    b): pass\n"
    let s : Symbol := ⟨.function, "f", "def f(b)"⟩
    (Outline.ofText {} t).topLevel.get? "f" = some s ∧
      ∃ f, lastFinding? {} t "f" = some f ∧ f.symbol = s ∧
        ∃ i, locate? t s.kind "f" = some ⟨i, 0⟩ ∧ i ≤ f.line ∧
          MatchesAt (declares s.kind "f") (splitLines t) i ∧
          ((∀ j, MatchesAt (declares s.kind "f") (splitLines t) j → j = f.line) → i = f.line) :=
  ⟨by decide +kernel, topLevel_symbol_located {} _ _ _ (by decide +kernel)⟩

/-! The search in the body of a class. -/

theorem isFunction_trim_of_isBlankText {name line : Text} (h : isBlankText line = true) :
    isFunction name (trim line) = false := by
  have hb : ∀ c ∈ line, isBlank c = true := List.all_eq_true.mp h
  have htrim : trim line = [] := by
    rw [trim, show trimLeft line = [] from List.dropWhile_eq_nil_iff.mpr hb]
    rfl
  rw [htrim]
  rfl

theorem isTopLevel_eq (line : Text) :
    isTopLevel line = (!isBlankText line && !isIndented line) := by
  cases line with
  | nil => rfl
  | cons c r => cases hc : isBlank c <;> simp [isTopLevel, isBlankText, isIndented, hc]

theorem findInBody?_of_clear {name line : Text} (index : Nat) {d : Nat} {lines : List Text}
    (hd : lines[d]? = some line) (hdef : isFunction name (trim line) = true)
    (hfirst : ∀ k l, k < d → lines[k]? = some l → isFunction name (trim l) = false)
    (hclear : ∀ k l, k ≤ d → lines[k]? = some l → isTopLevel l = false) :
    findInBody? name index lines = some (index + d) := by
  induction lines generalizing index d with
  | nil => simp at hd
  | cons first rest ih =>
    have hhead := hclear 0 first (Nat.zero_le d) rfl
    rw [isTopLevel_eq] at hhead
    have hlater (j : Nat) (hj : d = j + 1) :
        findInBody? name (index + 1) rest = some (index + d) := by
      subst hj
      have hstep := ih (index + 1) (by simpa using hd)
        (fun k l hk hl => hfirst (k + 1) l (by omega) (by simpa using hl))
        (fun k l hk hl => hclear (k + 1) l (by omega) (by simpa using hl))
      rw [hstep, Nat.add_right_comm, Nat.add_assoc]
    rw [findInBody?]
    cases d with
    | zero =>
      obtain rfl : first = line := by simpa using hd
      split
      · rename_i hblank
        rw [isFunction_trim_of_isBlankText hblank] at hdef
        contradiction
      · rename_i hblank
        have hindented : (!isIndented first) = false := by simpa [hblank] using hhead
        rw [hindented]
        rfl
    | succ j =>
      split
      · exact hlater j rfl
      · rename_i hblank
        have hindented : (!isIndented first) = false := by simpa [hblank] using hhead
        rw [hindented, hfirst 0 first (by omega) rfl]
        exact hlater j rfl

theorem findInBody?_of_blocked {name line : Text} (index : Nat) {k : Nat} {lines : List Text}
    (hk : lines[k]? = some line) (htop : isTopLevel line = true)
    (hbefore : ∀ j l, j < k → lines[j]? = some l → isFunction name (trim l) = false) :
    findInBody? name index lines = none := by
  induction lines generalizing index k with
  | nil => rfl
  | cons first rest ih =>
    rw [findInBody?]
    cases k with
    | zero =>
      obtain rfl : first = line := by simpa using hk
      rw [isTopLevel_eq, Bool.and_eq_true, Bool.not_eq_true'] at htop
      rw [htop.1, htop.2]
      rfl
    | succ k =>
      have hlater := ih (index + 1) (by simpa using hk)
        fun j l hj hl => hbefore (j + 1) l (by omega) (by simpa using hl)
      rw [hbefore 0 first (by omega) rfl]
      split
      · exact hlater
      · split
        · rfl
        · exact hlater

/-- Line `d` is the first one below line `c` that starts a definition of the name. -/
def FirstDefinitionBelow (name : Text) (lines : List Text) (c d : Nat) : Prop :=
  c < d ∧ (∃ line, lines[d]? = some line ∧ isFunction name (trim line) = true) ∧
    ∀ k line, c < k → k < d → lines[k]? = some line → isFunction name (trim line) = false

/-- An unindented line that the outline reads past in the body of the class on line `c`: a comment, or
a line that continues the header of a method. -/
def IsReadPast (layout : Outline.Layout) (lines : List Text) (c k : Nat) : Prop :=
  ∃ line, lines[k]? = some line ∧ isTopLevel line = true ∧ (isSkippable line = true ∨
    Outline.IsContinuation (Outline.methodFindings layout 0 (c + 1) (lines.drop (c + 1))) k)

theorem exists_firstDefinitionBelow {name line : Text} {lines : List Text} {c i : Nat} (hci : c < i)
    (hline : lines[i]? = some line) (hdef : isFunction name (trim line) = true) :
    ∃ d, d ≤ i ∧ FirstDefinitionBelow name lines c d := by
  classical
  have hex : ∃ d, c < d ∧ ∃ line, lines[d]? = some line ∧ isFunction name (trim line) = true :=
    ⟨i, hci, line, hline, hdef⟩
  refine ⟨Nat.find hex, Nat.find_min' hex ⟨hci, line, hline, hdef⟩, (Nat.find_spec hex).1,
    (Nat.find_spec hex).2, ?_⟩
  intro k l hck hk hl
  by_contra h
  rw [Bool.not_eq_false] at h
  exact Nat.find_min hex hk ⟨hck, l, hl, h⟩

/-- The search in a body, told by the indices of the whole text: it reaches the first definition if no
unindented line stands before it, and stops at such a line otherwise. -/
theorem findInBody?_first {name : Text} {lines : List Text} {c d : Nat}
    (h : FirstDefinitionBelow name lines c d) :
    ((∀ k l, c < k → k ≤ d → lines[k]? = some l → isTopLevel l = false) →
      findInBody? name (c + 1) (lines.drop (c + 1)) = some d) ∧
    ((∃ k l, c < k ∧ k ≤ d ∧ lines[k]? = some l ∧ isTopLevel l = true) →
      findInBody? name (c + 1) (lines.drop (c + 1)) = none) := by
  obtain ⟨hcd, ⟨line, hline, hdef⟩, hfirst⟩ := h
  have hat (k : Nat) : (lines.drop (c + 1))[k]? = lines[c + 1 + k]? := List.getElem?_drop
  constructor
  · intro hclear
    have hd : c + 1 + (d - (c + 1)) = d := by omega
    have hat_d : (lines.drop (c + 1))[d - (c + 1)]? = some line := by rw [hat, hd, hline]
    have hfound : findInBody? name (c + 1) (lines.drop (c + 1)) = some (c + 1 + (d - (c + 1))) := by
      apply findInBody?_of_clear (c + 1) hat_d hdef
      · intro k l hk hl
        exact hfirst (c + 1 + k) l (by omega) (by omega) (by rw [← hat, hl])
      · intro k l hk hl
        exact hclear (c + 1 + k) l (by omega) (by omega) (by rw [← hat, hl])
    rw [hfound, hd]
  · rintro ⟨k, l, hck, hkd, hl, htop⟩
    have hat_k : (lines.drop (c + 1))[k - (c + 1)]? = some l := by
      rw [hat, show c + 1 + (k - (c + 1)) = k by omega, hl]
    apply findInBody?_of_blocked (c + 1) hat_k htop
    intro j m hj hm
    exact hfirst (c + 1 + j) m (by omega) (by omega) (by rw [← hat, hm])

theorem exists_methodFinding {layout : Outline.Layout} {t owner name : Text}
    (h : ((Outline.ofText layout t).method? owner name).isSome = true) :
    ∃ c f, MatchesAt (isClass owner) (splitLines t) c ∧ owner ≠ [] ∧
      f ∈ Outline.methodFindings layout 0 (c + 1) ((splitLines t).drop (c + 1)) ∧
      f.header.name = name := by
  obtain ⟨s, hs⟩ := Option.isSome_iff_exists.mp h
  obtain ⟨ms, hms, hget⟩ := Option.bind_eq_some_iff.mp hs
  rw [Outline.ofText_eq_foldl] at hms
  rcases Outline.exists_finding_of_methods _ _ hms with hnone | ⟨g, hg, hname, hmethods, hne⟩
  · exact absurd hnone (by simp [OrderedMap.get?])
  have hmatch := matchesAt_of_mem_findingsOf hg
  obtain ⟨i, line, rest, n, hline, hdrop, hat⟩ := Outline.exists_findingAt?_of_mem hg
  rw [Nat.zero_add] at hline
  -- Only the line of a class is recorded with methods.
  obtain ⟨-, -, ⟨hd, m, -, -, hfun⟩ | ⟨owner', bases, hclass, -, hcls⟩ | ⟨var, -, -, hvar⟩⟩ :=
    Outline.findingAt?_cases hat
  · rw [← hmethods, hfun] at hne
    simp [OrderedMap.isEmpty] at hne
  · rw [hcls] at hname hmethods hmatch
    obtain rfl : owner' = owner := hname
    obtain ⟨_, _, -, -, -, howner, -⟩ := exists_of_classLine? hclass
    have hbelow : (splitLines t).drop (g.line + 1) = rest := by
      rw [hline, ← List.drop_drop, hdrop]
      rfl
    rw [← hmethods, Outline.get?_bodyMethods layout owner' name (g.line + 1)] at hget
    obtain ⟨f, hf, -⟩ := Option.map_eq_some_iff.mp hget
    refine ⟨g.line, f, hmatch, ?_, ?_, by simpa using List.find?_some hf⟩
    · rintro rfl
      simp [isIdentifier] at howner
    · rw [hbelow]
      exact List.mem_reverse.mp (List.mem_of_find?_eq_some hf)
  · rw [← hmethods, hvar] at hne
    simp [OrderedMap.isEmpty] at hne

/-- A finding in the body of the class on line `c` is an indented definition, and the outline has read
past every unindented line above it. -/
theorem methodFinding_line {layout : Outline.Layout} {lines : List Text} {c : Nat}
    {f : Outline.MethodFinding}
    (hf : f ∈ Outline.methodFindings layout 0 (c + 1) (lines.drop (c + 1))) :
    c < f.line ∧ (∃ line, lines[f.line]? = some line ∧ isFunction f.header.name (trim line) = true) ∧
      ∀ k l, c < k → k ≤ f.line → lines[k]? = some l → isTopLevel l = true →
        IsReadPast layout lines c k := by
  obtain ⟨i, line, rest, hline, hdrop, htop, hheader⟩ := Outline.exists_headerAt?_of_mem hf
  have hfline : lines[f.line]? = some line := by
    rw [hline, ← List.getElem?_drop, ← List.head?_drop, hdrop]
    rfl
  refine ⟨by omega, ⟨line, hfline, ?_⟩, ?_⟩
  · unfold Outline.headerAt? at hheader
    split at hheader
    · exact Header.isFunction_of_read? hheader
    · simp at hheader
  · intro k l hck hk hl hltop
    have hne : k ≠ f.line := by
      rintro rfl
      rw [hfline] at hl
      rw [← Option.some.inj hl, htop] at hltop
      contradiction
    have hk' : c + 1 + (k - (c + 1)) = k := by omega
    have hpast := Outline.skippable_or_continuation (k := k - (c + 1)) hf
      (by rw [List.getElem?_drop, hk', hl]) (Nat.zero_le _) (by omega) hltop
    rw [hk'] at hpast
    exact ⟨l, hl, hltop, hpast⟩

theorem findTopLevel?_of_unique {p : Text → Bool} {lines : List Text} {c : Nat}
    (hc : MatchesAt p lines c) (hunique : ∀ i, MatchesAt p lines i → i = c) :
    findTopLevel? p 0 lines = some (c, lines.drop (c + 1)) := by
  obtain ⟨⟨i, below⟩, hfound⟩ := exists_findTopLevel? 0 hc
  obtain ⟨j, hij, rfl, hj, -⟩ := findTopLevel?_eq_some hfound
  obtain rfl := hunique j hj
  rw [hfound, hij, Nat.zero_add]

/-- Where a method of an outline is located, if only one line starts its class. That is the first line
below which starts a definition of the method, exactly if the outline has read past no unindented line
on the way; otherwise it is the line of the class. -/
theorem indexed_method_located (layout : Outline.Layout) (t owner name : Text) (c : Nat)
    (hindexed : ((Outline.ofText layout t).method? owner name).isSome = true)
    (hclass : MatchesAt (isClass owner) (splitLines t) c)
    (hunique : ∀ i, MatchesAt (isClass owner) (splitLines t) i → i = c) :
    ∃ d, FirstDefinitionBelow name (splitLines t) c d ∧
      (locate? t (.method owner) name = some ⟨d, 0⟩ ↔
        ∀ k, c < k → k ≤ d → ¬IsReadPast layout (splitLines t) c k) ∧
      (locate? t (.method owner) name = some ⟨d, 0⟩ ∨
        locate? t (.method owner) name = some ⟨c, 0⟩) := by
  obtain ⟨c', f, hc', howner, hf, hname⟩ := exists_methodFinding hindexed
  obtain rfl := hunique c' hc'
  obtain ⟨hcf, ⟨line, hline, hdef⟩, hpast⟩ := methodFinding_line hf
  obtain ⟨d, hdf, hd⟩ := exists_firstDefinitionBelow hcf hline (hname ▸ hdef)
  obtain ⟨hfound, hstopped⟩ := findInBody?_first hd
  have hlocate : locate? t (.method owner) name = some
      ⟨(findInBody? name (c' + 1) ((splitLines t).drop (c' + 1))).getD c', 0⟩ := by
    simp only [locate?, findTopLevel?_of_unique hclass hunique]
    rw [if_neg (by simpa using howner)]
  refine ⟨d, hd, ?_⟩
  by_cases hclear : ∀ k, c' < k → k ≤ d → ¬IsReadPast layout (splitLines t) c' k
  · have hloc : locate? t (.method owner) name = some ⟨d, 0⟩ := by
      rw [hlocate, hfound, Option.getD_some]
      intro k l hck hkd hl
      by_contra htop
      rw [Bool.not_eq_false] at htop
      exact hclear k hck hkd (hpast k l hck (by omega) hl htop)
    exact ⟨⟨fun _ => hclear, fun _ => hloc⟩, Or.inl hloc⟩
  · have hloc : locate? t (.method owner) name = some ⟨c', 0⟩ := by
      rw [hlocate, hstopped, Option.getD_none]
      simp only [not_forall, not_not] at hclear
      obtain ⟨k, hck, hkd, l, hl, htop, -⟩ := hclear
      exact ⟨k, l, hck, hkd, hl, htop⟩
    refine ⟨⟨fun h => ?_, fun h => absurd h hclear⟩, Or.inr hloc⟩
    rw [hloc] at h
    have heq : c' = d := congrArg Position.line (Option.some.inj h)
    exact absurd hd.1 (by omega)

theorem indexed_method_located_below_indented_comment :
    let t : Text := "class A:\n    def one(self):\n        pass\n\n    # section\n    def two(self):\n        pass\n"
    ((Outline.ofText {} t).method? "A" "two").isSome = true ∧
      MatchesAt (isClass "A") (splitLines t) 0 ∧
      (∀ i, MatchesAt (isClass "A") (splitLines t) i → i = 0) ∧
      ∃ d, FirstDefinitionBelow "two" (splitLines t) 0 d ∧
        (locate? t (.method "A") "two" = some ⟨d, 0⟩ ↔
          ∀ k, 0 < k → k ≤ d → ¬IsReadPast {} (splitLines t) 0 k) ∧
        (locate? t (.method "A") "two" = some ⟨d, 0⟩ ∨
          locate? t (.method "A") "two" = some ⟨0, 0⟩) := by
  intro t
  have hindexed : ((Outline.ofText {} t).method? "A" "two").isSome = true := by decide +kernel
  have hclass : MatchesAt (isClass "A") (splitLines t) 0 := by decide +kernel
  have hbounded : ∀ i < (splitLines t).length, MatchesAt (isClass "A") (splitLines t) i → i = 0 := by
    decide +kernel
  have hunique : ∀ i, MatchesAt (isClass "A") (splitLines t) i → i = 0 :=
    fun i hi => hbounded i hi.lt_length hi
  exact ⟨hindexed, hclass, hunique, indexed_method_located {} t _ _ 0 hindexed hclass hunique⟩

/-- A method below an unindented comment is in the outline, with one line for its class, and yet the
search ends on the line of the class. -/
theorem method_below_unindented_comment_missed :
    let t : Text := "class A:\n    def one(self):\n        pass\n\n# section\n\n    def two(self):\n        pass\n"
    ((Outline.ofText {} t).method? "A" "two").isSome = true ∧
      MatchesAt (isClass "A") (splitLines t) 0 ∧
      (∀ i, MatchesAt (isClass "A") (splitLines t) i → i = 0) ∧
      ¬∃ i line, locate? t (.method "A") "two" = some ⟨i, 0⟩ ∧ 0 < i ∧
        (splitLines t)[i]? = some line ∧ isFunction "two" (trim line) = true := by
  intro t
  have hbounded : ∀ i < (splitLines t).length, MatchesAt (isClass "A") (splitLines t) i → i = 0 := by
    decide +kernel
  have hlocate : locate? t (.method "A") "two" = some ⟨0, 0⟩ := by decide +kernel
  refine ⟨by decide +kernel, by decide +kernel, fun i hi => hbounded i hi.lt_length hi, ?_⟩
  rintro ⟨i, line, hi, hpos, -⟩
  rw [hlocate] at hi
  have hzero : 0 = i := congrArg Position.line (Option.some.inj hi)
  omega

end Declaration
end EditorInsight
