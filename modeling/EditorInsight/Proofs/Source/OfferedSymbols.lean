import EditorInsight.Proofs.Source.Locality
import EditorInsight.Proofs.Source.Located
import EditorInsight.Service.Inquiry

/-!
# What an outline offers

Every symbol that an outline lists is found again under its name. The name is an identifier, and the symbol
has a signature to show.
-/

namespace EditorInsight

open Text

/-- The symbol can be shown under the name. -/
structure Symbol.ShownAs (name : Text) (s : Symbol) : Prop where
  isIdentifier : isIdentifier name = true
  signature_ne_nil : s.signature ≠ []

namespace Outline

variable {layout : Layout}

theorem isIdentifier_of_headerAt? {cut : Text → Text} {line : Text} {rest : List Text} {hd : Header} {n : Nat}
    (h : headerAt? layout cut line rest = some (hd, n)) : isIdentifier hd.name = true := by
  unfold headerAt? at h
  split at h
  · obtain ⟨o, r, -, -, hname⟩ := Header.exists_opening_of_read? h
    rw [hname]
    exact o.isIdentifier_name
  · cases h

theorem format_ne_nil (hd : Header) (owner : Text) : hd.format owner ≠ [] := by
  intro hnil
  obtain ⟨hclosed, -⟩ := List.append_eq_nil_iff.mp hnil
  obtain ⟨-, hparenthesis⟩ := List.append_eq_nil_iff.mp hclosed
  cases hparenthesis

theorem shownAs_of_findingAt? {index n : Nat} {line : Text} {rest : List Text} {f : Finding}
    (h : findingAt? layout index line rest = some (f, n)) : f.symbol.ShownAs f.symbol.name := by
  obtain ⟨-, -, ⟨hd, m, hheader, -, rfl⟩ | ⟨name, bases, hclass, -, rfl⟩ | ⟨name, hname, -, rfl⟩⟩ :=
    findingAt?_cases h
  · exact ⟨isIdentifier_of_headerAt? hheader, format_ne_nil hd []⟩
  · obtain ⟨b, r, -, -, -, hidentifier, -⟩ := Declaration.exists_of_classLine? hclass
    exact ⟨hidentifier, by simp [classSymbol]⟩
  · unfold variableLine? at hname
    split at hname
    · cases hname
    · rename_i ident r hident
      obtain ⟨-, hidentifier, -⟩ := identifier?_eq_some hident
      split at hname
      · obtain rfl := Option.some.inj hname
        exact ⟨hidentifier, by simp [Symbol.binding]⟩
      · cases hname

theorem topLevel_of_mem {t name : Text} {s : Symbol} (h : (name, s) ∈ (ofText layout t).topLevel.entries) :
    (ofText layout t).topLevel.get? name = some s ∧ s.ShownAs name := by
  have hget := OrderedMap.get?_of_mem (keysDistinct_ofText layout t).topLevel h
  refine ⟨hget, ?_⟩
  rw [topLevel_get?_ofText] at hget
  obtain ⟨f, hlast, rfl⟩ := Option.map_eq_some_iff.mp hget
  have hname : f.symbol.name = name := by simpa using List.find?_some hlast
  obtain ⟨i, line, rest, n, -, -, hat⟩ :=
    exists_findingAt?_of_mem (List.mem_reverse.mp (List.mem_of_find?_eq_some hlast))
  rw [← hname]
  exact shownAs_of_findingAt? hat

theorem method?_of_mem {t owner name : Text} {ms : OrderedMap Text Symbol} {s : Symbol}
    (hms : (ofText layout t).methods.get? owner = some ms) (h : (name, s) ∈ ms.entries) :
    (ofText layout t).method? owner name = some s ∧ s.ShownAs name := by
  have hfindings := hms
  rw [ofText_eq_foldl] at hfindings
  rcases exists_finding_of_methods _ _ hfindings with hempty | ⟨f, hf, -, rfl, hne⟩
  · cases hempty
  · obtain ⟨i, line, rest, n, -, -, hat⟩ := exists_findingAt?_of_mem hf
    generalize f.line = index at hat
    -- Only a class has methods, and they are those of its body.
    obtain ⟨-, -, ⟨hd, m, -, -, rfl⟩ | ⟨name', bases, -, -, rfl⟩ | ⟨name', -, -, rfl⟩⟩ :=
      findingAt?_cases hat
    · cases hne
    · have hnodup : (bodyMethods layout name' 0 {} rest).keys.Nodup := by
        rw [bodyMethods_eq_foldl layout name' 0 0]
        exact OrderedMap.nodup_keys_foldl_put _ _ _ List.nodup_nil
      have hget := OrderedMap.get?_of_mem hnodup h
      refine ⟨by rw [method?, hms]; exact hget, ?_⟩
      rw [get?_bodyMethods layout name' name 0] at hget
      obtain ⟨g, hlast, rfl⟩ := Option.map_eq_some_iff.mp hget
      have hname : g.header.name = name := by simpa using List.find?_some hlast
      obtain ⟨j, line', rest', -, -, -, hheader⟩ :=
        exists_headerAt?_of_mem (List.mem_reverse.mp (List.mem_of_find?_eq_some hlast))
      rw [← hname]
      exact ⟨isIdentifier_of_headerAt? hheader, format_ne_nil _ _⟩
    · cases hne

end Outline

namespace Workspace

theorem mem_symbolItems {m : OrderedMap Text Symbol} {item : CompletionItem} (h : item ∈ symbolItems m) :
    ∃ name s, (name, s) ∈ m.entries ∧ item = symbolItem (name, s) := by
  obtain ⟨⟨name, s⟩, hmem, rfl⟩ := List.mem_map.mp h
  exact ⟨name, s, List.mem_mergeSort.mp hmem, rfl⟩

end Workspace
end EditorInsight
