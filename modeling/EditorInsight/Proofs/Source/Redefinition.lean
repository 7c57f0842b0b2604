import EditorInsight.Proofs.Source.Locality
import EditorInsight.Proofs.Source.Located

/-!
# Names that are declared again

A name has the symbol of its last declaration. Its methods are those of the last class line of that name
whose body has any, since a declaration without methods leaves the entry of an earlier class in place. So
the methods follow the last declaration unless it has none and an earlier one has some.
-/

namespace EditorInsight

open Text Declaration

namespace Outline

variable {layout : Layout} {t owner : Text} {f : Finding}

/-- The last finding under a name that has methods. -/
def lastWithMethods? (layout : Layout) (t owner : Text) : Option Finding :=
  (findingsOf layout t).reverse.find? fun f => f.methods.isEmpty = false ∧ f.symbol.name = owner

theorem methods_get?_ofText (layout : Layout) (t owner : Text) :
    (ofText layout t).methods.get? owner = (lastWithMethods? layout t owner).map Finding.methods := by
  rw [ofText_eq_foldl, methods_foldl_record, OrderedMap.get?_foldl_put, ← List.filter_reverse,
    List.find?_filter]
  change Option.or _ none = _
  simp only [Option.or_none, lastWithMethods?, Bool.not_eq_true', decide_eq_true_eq]

theorem methods_of_class (hf : f ∈ findingsOf layout t) (hkind : f.symbol.kind = .classDecl) :
    f.methods = bodyMethods layout f.symbol.name 0 {} ((splitLines t).drop (f.line + 1)) := by
  rw [methods_eq_foldl_of_mem hf, bodyMethods_eq_foldl layout _ 0 (f.line + 1)]
  exact congrArg _ (bodyFindings_of_class hkind _)

theorem kind_of_methods (hf : f ∈ findingsOf layout t) (hne : f.methods.isEmpty = false) :
    f.symbol.kind = .classDecl := by
  rw [methods_eq_foldl_of_mem hf] at hne
  unfold bodyFindings at hne
  split at hne
  · assumption
  · contradiction

theorem mem_of_lastFinding? (h : lastFinding? layout t owner = some f) :
    f ∈ findingsOf layout t ∧ f.symbol.name = owner :=
  ⟨List.mem_reverse.mp (List.mem_of_find?_eq_some h), by simpa using List.find?_some h⟩

theorem mem_of_lastWithMethods? (h : lastWithMethods? layout t owner = some f) :
    f ∈ findingsOf layout t ∧ f.symbol.kind = .classDecl ∧ f.methods.isEmpty = false ∧
      f.methods = bodyMethods layout owner 0 {} ((splitLines t).drop (f.line + 1)) := by
  obtain ⟨hne, rfl⟩ : f.methods.isEmpty = false ∧ f.symbol.name = owner := by simpa using List.find?_some h
  have hf : f ∈ findingsOf layout t := List.mem_reverse.mp (List.mem_of_find?_eq_some h)
  have hkind := kind_of_methods hf hne
  exact ⟨hf, hkind, hne, methods_of_class hf hkind⟩

theorem lastWithMethods?_of_last (h : lastFinding? layout t owner = some f)
    (hne : f.methods.isEmpty = false) : lastWithMethods? layout t owner = some f := by
  obtain ⟨hname, before, after, hsplit, hbefore⟩ := List.find?_eq_some_iff_append.mp h
  apply List.find?_eq_some_iff_append.mpr
  refine ⟨by simpa [hne] using hname, before, after, hsplit, ?_⟩
  intro g hg
  have hother : g.symbol.name ≠ owner := by simpa using hbefore g hg
  simp [hother]

/-- The methods of a name follow its last declaration: if there are any, that is a class and they are what
its body yields, and there are none if it is no class or has a body without methods. -/
def MethodsFollow (layout : Layout) (t owner : Text) : Prop :=
  (∀ ms, (ofText layout t).methods.get? owner = some ms →
    ∃ f, lastFinding? layout t owner = some f ∧ f.symbol.kind = .classDecl ∧
      (ofText layout t).topLevel.get? owner = some f.symbol ∧
      ms = bodyMethods layout owner 0 {} ((splitLines t).drop (f.line + 1))) ∧
  ∀ f, lastFinding? layout t owner = some f →
    (f.symbol.kind ≠ .classDecl ∨
      (bodyMethods layout owner 0 {} ((splitLines t).drop (f.line + 1))).isEmpty = true) →
    (ofText layout t).methods.get? owner = none

theorem methodsFollow_of_last
    (h : ∀ f, lastWithMethods? layout t owner = some f → lastFinding? layout t owner = some f) :
    MethodsFollow layout t owner := by
  constructor
  · intro ms hms
    rw [methods_get?_ofText] at hms
    obtain ⟨f, hwith, rfl⟩ := Option.map_eq_some_iff.mp hms
    obtain ⟨-, hkind, -, hmethods⟩ := mem_of_lastWithMethods? hwith
    have htop : (ofText layout t).topLevel.get? owner = (lastFinding? layout t owner).map Finding.symbol :=
      topLevel_get?_ofText layout t owner
    rw [h f hwith] at htop
    exact ⟨f, h f hwith, hkind, htop, hmethods⟩
  · intro f hlast hnone
    rw [methods_get?_ofText]
    cases hwith : lastWithMethods? layout t owner with
    | none => rfl
    | some g =>
      -- The last finding would have methods, against what is assumed of it.
      obtain rfl : f = g := Option.some.inj (hlast.symm.trans (h g hwith))
      obtain ⟨-, hkind, hne, hmethods⟩ := mem_of_lastWithMethods? hwith
      have hempty := hnone.resolve_left (not_not_intro hkind)
      rw [← hmethods, hne] at hempty
      contradiction

theorem last_of_methodsFollow (h : MethodsFollow layout t owner)
    (hwith : lastWithMethods? layout t owner = some f) : lastFinding? layout t owner = some f := by
  have hget := methods_get?_ofText layout t owner
  rw [hwith] at hget
  obtain ⟨g, hlast, hkind, -, hms⟩ := h.1 _ hget
  obtain ⟨hg, hname⟩ := mem_of_lastFinding? hlast
  obtain ⟨-, -, hne, -⟩ := mem_of_lastWithMethods? hwith
  have hmethods : g.methods = f.methods := by
    rw [hms, methods_of_class hg hkind, hname]
  have hsame := lastWithMethods?_of_last hlast (hmethods ▸ hne)
  rw [hlast, ← hwith, hsame]

theorem not_methodsFollow
    (h : (lastWithMethods? layout t owner).isSome = true)
    (hlast : (lastFinding? layout t owner).map Finding.line ≠
      (lastWithMethods? layout t owner).map Finding.line) : ¬ MethodsFollow layout t owner := by
  intro hfollow
  obtain ⟨f, hwith⟩ := Option.isSome_iff_exists.mp h
  rw [last_of_methodsFollow hfollow hwith, hwith] at hlast
  exact hlast rfl

/-- A name has the methods of the last class line of that name whose body has any. They follow the last
declaration of the name exactly if that class line is the last declaration. -/
theorem methods_of_redeclared (layout : Layout) (t owner : Text) :
    ((ofText layout t).methods.get? owner = (lastWithMethods? layout t owner).map fun f =>
      bodyMethods layout owner 0 {} ((splitLines t).drop (f.line + 1))) ∧
    (MethodsFollow layout t owner ↔
      ∀ f, lastWithMethods? layout t owner = some f → lastFinding? layout t owner = some f) := by
  refine ⟨?_, fun h f hwith => last_of_methodsFollow h hwith, methodsFollow_of_last⟩
  rw [methods_get?_ofText]
  cases hwith : lastWithMethods? layout t owner with
  | none => rfl
  | some f => exact congrArg some (mem_of_lastWithMethods? hwith).2.2.2

/-- A class with a method, of which the name becomes a variable, and one that is declared again without
methods: both keep the methods of the class that is gone. -/
theorem methods_of_replaced_class_kept :
    let t : Text := "class C:\n    def m(self):\n        pass\nC = 1\n"
    let u : Text := "class C:\n    def m(self):\n        pass\nclass C:\n    x = 1\n"
    (ofText {} t).topLevel.get? "C" = some (Symbol.binding "C") ∧
    (ofText {} t).method? "C" "m" = some ⟨.method "C", "m", "def C.m(self)"⟩ ∧
    ¬ MethodsFollow {} t "C" ∧
    (bodyMethods {} "C" 0 {} ((splitLines u).drop 4)).isEmpty = true ∧
    (ofText {} u).method? "C" "m" = some ⟨.method "C", "m", "def C.m(self)"⟩ ∧
    ¬ MethodsFollow {} u "C" := by
  intro t u
  have hvariable : ¬ MethodsFollow {} t "C" :=
    not_methodsFollow (by decide +kernel) (by decide +kernel)
  have hclass : ¬ MethodsFollow {} u "C" := not_methodsFollow (by decide +kernel) (by decide +kernel)
  exact ⟨by decide +kernel, by decide +kernel, hvariable, by decide +kernel, by decide +kernel, hclass⟩

end Outline
end EditorInsight
