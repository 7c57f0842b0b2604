import Mathlib.Data.List.Nodup
import EditorInsight.Proofs.Data.ShownValue
import EditorInsight.Proofs.Text.Blank
import EditorInsight.Settings.Load

/-!
# Settings decided key by key

Every setting has a rule that its value passes. What a settings file leaves in a setting depends on the entry
under its name alone: the loaded value if the rule accepts it, and the default otherwise. Each other entry is
reported once. The one thing that keeps settings from loading is a report that would have to show what cannot be
shown, since it is nested too deeply or has a whole number of too many digits in it.
-/

namespace EditorInsight

/-! What the rules accept. -/

/-- A text that is not blank. -/
def IsFolder (v : Value) : Prop := ∃ t : LoadedText, v = t.value ∧ ∃ c ∈ t.chars, Text.isBlank c = false

/-- A dot and at least one more code point. -/
def IsExtension (v : Value) : Prop :=
  ∃ t : LoadedText, v = t.value ∧ 2 ≤ t.chars.length ∧ t.chars.head? = some '.'

def IsPositive (v : Value) : Prop := ∃ n : Int, v = .int n ∧ 0 < n

namespace SettingKey

/-- The rule for the value of a setting. -/
def Accepts (v : Value) : SettingKey → Prop
  | libsDir => IsFolder v
  | tablesDir => IsFolder v
  | moduleExtensions => ∃ a b, v = .list [a, b] ∧ IsExtension a ∧ IsExtension b
  | moduleIndexTtl => IsPositive v
  | importListTtl => IsPositive v
  | classBodyIndent => IsPositive v
  | maxDefLines => IsPositive v
  | maxFileSize => IsPositive v
  | watchLibraries => ∃ b, v = .bool b

end SettingKey

def Value.entries : Value → List (Value × Value)
  | map entries => entries
  | _ => []

/-! The readers of values. -/

theorem text?_eq_some_iff {v : Value} {t : LoadedText} : text? v = some t ↔ v = t.value := by
  cases t <;> cases v <;> simp [text?, LoadedText.value]

theorem folder?_eq_some_iff {v : Value} {t : LoadedText} :
    folder? v = some t ↔ v = t.value ∧ ∃ c ∈ t.chars, Text.isBlank c = false := by
  rw [folder?, Option.filter_eq_some_iff, text?_eq_some_iff, Text.isBlankText]
  simp

theorem extension?_eq_some_iff {v : Value} {t : LoadedText} :
    extension? v = some t ↔ v = t.value ∧ 2 ≤ t.chars.length ∧ t.chars.head? = some '.' := by
  rw [extension?, Option.filter_eq_some_iff, text?_eq_some_iff]
  simp [Nat.succ_le_iff]

theorem positive?_eq_some_iff {v : Value} {n : Int} : positive? v = some n ↔ v = .int n ∧ 0 < n := by
  cases v with
  | int m =>
    simp only [positive?, Option.ite_none_right_eq_some, Option.some.injEq, Value.int.injEq]
    exact ⟨fun ⟨hpos, heq⟩ => ⟨heq, heq ▸ hpos⟩, fun ⟨heq, hpos⟩ => ⟨heq ▸ hpos, heq⟩⟩
  | _ => simp [positive?]

theorem flag?_eq_some_iff {v : Value} {b : Bool} : flag? v = some b ↔ v = .bool b := by
  cases v <;> simp [flag?]

theorem extensions?_eq_some_iff {v : Value} {es : List LoadedText} :
    extensions? v = some es ↔ ∃ a b s t, v = .list [a, b] ∧ extension? a = some s ∧ extension? b = some t ∧
      es = [s, t] := by
  constructor
  · intro h
    unfold extensions? at h
    split at h
    · rename_i a b
      obtain ⟨s, hs, h⟩ := Option.bind_eq_some_iff.mp h
      obtain ⟨t, ht, h⟩ := Option.bind_eq_some_iff.mp h
      exact ⟨a, b, s, t, rfl, hs, ht, (Option.some.inj h).symm⟩
    · cases h
  · rintro ⟨a, b, s, t, rfl, hs, ht, rfl⟩
    rw [extensions?, hs, ht]
    rfl

namespace Settings

variable {s s' : Settings} {k : SettingKey} {v : Value}

theorem isSome_assign?_iff : (s.assign? v k).isSome = true ↔ k.Accepts v := by
  have hfolder : (folder? v).isSome = true ↔ IsFolder v := by
    simp only [Option.isSome_iff_exists, folder?_eq_some_iff, IsFolder]
  have hpositive : (positive? v).isSome = true ↔ IsPositive v := by
    simp only [Option.isSome_iff_exists, positive?_eq_some_iff, IsPositive]
  cases k with
  | libsDir => exact Option.isSome_map.symm ▸ hfolder
  | tablesDir => exact Option.isSome_map.symm ▸ hfolder
  | moduleExtensions =>
    rw [assign?, Option.isSome_map, Option.isSome_iff_exists]
    simp only [extensions?_eq_some_iff, extension?_eq_some_iff]
    constructor
    · rintro ⟨es, a, b, s, t, hv, hs, ht, -⟩
      exact ⟨a, b, hv, ⟨s, hs⟩, ⟨t, ht⟩⟩
    · rintro ⟨a, b, hv, ⟨s, hs⟩, ⟨t, ht⟩⟩
      exact ⟨[s, t], a, b, s, t, hv, hs, ht, rfl⟩
  | moduleIndexTtl => exact Option.isSome_map.symm ▸ hpositive
  | importListTtl => exact Option.isSome_map.symm ▸ hpositive
  | classBodyIndent => exact Option.isSome_map.symm ▸ hpositive
  | maxDefLines => exact Option.isSome_map.symm ▸ hpositive
  | maxFileSize => exact Option.isSome_map.symm ▸ hpositive
  | watchLibraries =>
    rw [assign?, Option.isSome_map, Option.isSome_iff_exists]
    simp only [flag?_eq_some_iff]
    rfl

theorem assign?_eq_none_iff : s.assign? v k = none ↔ ¬ k.Accepts v := by
  rw [← isSome_assign?_iff (s := s), Option.not_isSome_iff_eq_none]

theorem value_of_assign? (h : s.assign? v k = some s') (k' : SettingKey) :
    s'.value k' = if k' = k then v else s.value k' := by
  have hfolder {t : LoadedText} (ht : folder? v = some t) : v = t.value := (folder?_eq_some_iff.mp ht).1
  have hpositive {n : Int} (hn : positive? v = some n) : v = .int n := (positive?_eq_some_iff.mp hn).1
  have hextensions {es : List LoadedText} (hes : extensions? v = some es) : v = .list (es.map LoadedText.value) := by
    obtain ⟨a, b, s, t, rfl, hs, ht, rfl⟩ := extensions?_eq_some_iff.mp hes
    rw [List.map_cons, List.map_singleton, (extension?_eq_some_iff.mp hs).1, (extension?_eq_some_iff.mp ht).1]
  have hflag {b : Bool} (hb : flag? v = some b) : v = .bool b := flag?_eq_some_iff.mp hb
  cases k <;> obtain ⟨x, hx, rfl⟩ := Option.map_eq_some_iff.mp h
  case libsDir => rw [hfolder hx]; cases k' <;> rfl
  case tablesDir => rw [hfolder hx]; cases k' <;> rfl
  case moduleExtensions => rw [hextensions hx]; cases k' <;> rfl
  case watchLibraries => rw [hflag hx]; cases k' <;> rfl
  all_goals rw [hpositive hx]; cases k' <;> rfl

instance (k : SettingKey) (v : Value) : Decidable (k.Accepts v) :=
  decidable_of_iff ((({} : Settings).assign? v k).isSome = true) isSome_assign?_iff

end Settings

namespace SettingKey

theorem mem_all (k : SettingKey) : k ∈ all := by
  cases k <;> decide

theorem name_injective {k k' : SettingKey} (h : k.name = k'.name) : k = k' :=
  List.inj_on_of_nodup_map (by decide : (all.map name).Nodup) k.mem_all k'.mem_all h

theorem ofValue?_eq_some_iff {key : Value} {k : SettingKey} : ofValue? key = some k ↔ key = .text k.name := by
  constructor
  · intro h
    unfold ofValue? at h
    split at h
    · have hname := List.find?_some h
      rw [of_decide_eq_true hname]
    · cases h
  · rintro rfl
    obtain ⟨k', hk'⟩ : ∃ k', all.find? (fun x => x.name = k.name) = some k' :=
      Option.isSome_iff_exists.mp (List.find?_isSome.mpr ⟨k, k.mem_all, decide_eq_true rfl⟩)
    have hname := List.find?_some hk'
    rw [ofValue?, hk', name_injective (of_decide_eq_true hname)]

theorem ofValue?_eq_none_iff {key : Value} : ofValue? key = none ↔ ∀ k : SettingKey, key ≠ .text k.name := by
  rw [Option.eq_none_iff_forall_ne_some]
  exact forall_congr' fun k => ofValue?_eq_some_iff.not

theorem accepts_default (k : SettingKey) : k.Accepts (({} : Settings).value k) := by
  cases k <;> decide

end SettingKey

namespace Settings

variable {s : Settings} {k : SettingKey} {levels : Nat} {entry : Value × Value}

/-! One entry. -/

/-- What is reported about an entry: an unknown key, or a value that its rule does not accept. -/
def entryNotice? (entry : Value × Value) : Option SettingsNotice :=
  match SettingKey.ofValue? entry.1 with
  | none => some (.unknownKey entry.1.display)
  | some k => if k.Accepts entry.2 then none else some (.refused k entry.2.display)

/-- What the report about an entry has to show. -/
inductive Shows : Value × Value → Value → Prop
  | unknown {key value : Value} (h : ∀ k : SettingKey, key ≠ .text k.name) : Shows (key, value) key
  | refused {k : SettingKey} {value : Value} (h : ¬ k.Accepts value) : Shows (.text k.name, value) value

/-- The report about the entry, if there is one, has a text. -/
def Sayable (levels : Nat) (entry : Value × Value) : Prop := ∀ x, Shows entry x → x.HasText levels

/-- The settings after an entry, which they keep out if its rule does not accept it. -/
def afterEntry (s : Settings) (entry : Value × Value) : Settings :=
  match SettingKey.ofValue? entry.1 with
  | none => s
  | some k => (s.assign? entry.2 k).getD s

/-- All that an entry can do: its value is assigned, or the report about it shows a value. -/
theorem takeEntry_cases (s : Settings) (entry : Value × Value) :
    (entryNotice? entry = none ∧ (∀ x, ¬ Shows entry x) ∧
      ∀ levels, s.takeEntry levels entry.1 entry.2 = .ok (s.afterEntry entry, none)) ∨
    ∃ (x : Value) (notice : Text → SettingsNotice), Shows entry x ∧ (∀ y, Shows entry y → y = x) ∧
      entryNotice? entry = some (notice x.display) ∧
      s.afterEntry entry = s ∧ ∀ levels, s.takeEntry levels entry.1 entry.2 =
        (x.shown levels).map fun t => (s, some (notice t)) := by
  obtain ⟨key, value⟩ := entry
  unfold entryNotice? takeEntry afterEntry
  cases hkey : SettingKey.ofValue? key with
  | none =>
    have hunknown := SettingKey.ofValue?_eq_none_iff.mp hkey
    refine .inr ⟨key, .unknownKey, .unknown hunknown, ?_, rfl, rfl, fun levels => ?_⟩
    · rintro y (_ | _)
      · rfl
      · exact absurd rfl (hunknown _)
    · cases key.shown levels <;> rfl
  | some k =>
    obtain rfl := SettingKey.ofValue?_eq_some_iff.mp hkey
    have hshows {x : Value} (h : Shows (.text k.name, value) x) : ¬ k.Accepts value ∧ x = value := by
      generalize hname : Value.text k.name = key at h
      cases h with
      | unknown h => exact absurd hname.symm (h k)
      | refused h =>
        obtain rfl := SettingKey.name_injective (Value.text.inj hname)
        exact ⟨h, rfl⟩
    cases hassign : s.assign? value k with
    | none =>
      have hnot : ¬ k.Accepts value := assign?_eq_none_iff.mp hassign
      refine .inr ⟨value, .refused k, .refused hnot, fun y hy => (hshows hy).2, if_neg hnot, ?_, fun levels => ?_⟩
      · simp only [hassign, Option.getD_none]
      · simp only [hassign]
        cases value.shown levels <;> rfl
    | some s' =>
      have haccepts : k.Accepts value := isSome_assign?_iff.mp (Option.isSome_of_eq_some hassign)
      refine .inl ⟨if_pos haccepts, fun x hx => (hshows hx).1 haccepts, fun levels => ?_⟩
      simp only [hassign, Option.getD_some]
      rfl

theorem takeEntry_of_sayable (h : Sayable levels entry) (s : Settings) :
    s.takeEntry levels entry.1 entry.2 = .ok (s.afterEntry entry, entryNotice? entry) := by
  rcases s.takeEntry_cases entry with ⟨hnotice, -, htake⟩ | ⟨x, notice, hx, -, hnotice, hafter, htake⟩
  · rw [htake, hnotice]
  · rw [htake, hnotice, hafter, Value.shown_of_hasText (h x hx)]
    rfl

theorem takeEntry_of_not_sayable (h : ¬ Sayable levels entry) (s : Settings) :
    ∃ x f d y, Shows entry x ∧ x.shown levels = .error f ∧ x.HasPart d y ∧ f.At levels d y ∧
      s.takeEntry levels entry.1 entry.2 = .error f := by
  rcases s.takeEntry_cases entry with ⟨-, hnone, -⟩ | ⟨x, notice, hx, honly, -, -, htake⟩
  · exact absurd (fun x hx => absurd hx (hnone x)) h
  · have hnot : ¬ x.HasText levels := fun htext => h fun y hy => honly y hy ▸ htext
    obtain ⟨f, d, y, hshown, hpart, hat⟩ := Value.exists_part_of_not_hasText hnot
    refine ⟨x, f, d, y, hx, hshown, hpart, hat, ?_⟩
    rw [htake, hshown]
    rfl

instance (levels : Nat) (entry : Value × Value) : Decidable (Sayable levels entry) :=
  decidable_of_iff ((({} : Settings).takeEntry levels entry.1 entry.2).isOk = true) (by
    constructor
    · intro h
      by_contra hnot
      obtain ⟨_, _, _, _, -, -, -, -, htake⟩ := takeEntry_of_not_sayable hnot {}
      rw [htake] at h
      cases h
    · intro h
      rw [takeEntry_of_sayable h]
      rfl)

theorem value_afterEntry (s : Settings) (entry : Value × Value) (k : SettingKey) :
    (s.afterEntry entry).value k =
      if SettingKey.ofValue? entry.1 = some k ∧ k.Accepts entry.2 then entry.2 else s.value k := by
  unfold afterEntry
  cases SettingKey.ofValue? entry.1 with
  | none => simp
  | some k' =>
    cases hassign : s.assign? entry.2 k' with
    | none =>
      have hnot : ¬ (some k' = some k ∧ k.Accepts entry.2) := by
        rintro ⟨heq, h⟩
        obtain rfl := Option.some.inj heq
        exact assign?_eq_none_iff.mp hassign h
      simp only [hassign, Option.getD_none, if_neg hnot]
    | some s' =>
      have haccepts : k'.Accepts entry.2 := isSome_assign?_iff.mp (Option.isSome_of_eq_some hassign)
      simp only [hassign, Option.getD_some, value_of_assign? hassign, Option.some.injEq]
      by_cases heq : k = k'
      · subst heq
        rw [if_pos rfl, if_pos ⟨rfl, haccepts⟩]
      · rw [if_neg heq, if_neg fun h => heq h.1.symm]

/-! All entries. -/

/-- As long as reports have texts, the entries are taken with one report for each that calls for one. -/
theorem takeEntries_append {before : List (Value × Value)} (h : ∀ e ∈ before, Sayable levels e) (s : Settings)
    (notices : List SettingsNotice) (after : List (Value × Value)) :
    s.takeEntries levels notices (before ++ after) =
      (before.foldl afterEntry s).takeEntries levels (notices ++ before.filterMap entryNotice?) after := by
  induction before generalizing s notices with
  | nil => simp
  | cons e before ih =>
    obtain ⟨he, hbefore⟩ := List.forall_mem_cons.mp h
    rw [List.cons_append, takeEntries, takeEntry_of_sayable he]
    simp only [ih hbefore, List.foldl_cons, List.filterMap_cons]
    cases entryNotice? e <;> simp

theorem value_foldl_of_absent {entries : List (Value × Value)} (habsent : ∀ v, (.text k.name, v) ∉ entries)
    (s : Settings) : (entries.foldl afterEntry s).value k = s.value k := by
  induction entries generalizing s with
  | nil => rfl
  | cons entry entries ih =>
    have hother : ¬ (SettingKey.ofValue? entry.1 = some k ∧ k.Accepts entry.2) := by
      rintro ⟨hkey, -⟩
      refine habsent entry.2 (List.mem_cons.mpr (.inl ?_))
      rw [← SettingKey.ofValue?_eq_some_iff.mp hkey]
    rw [List.foldl_cons, ih fun v hv => habsent v (List.mem_cons_of_mem _ hv), value_afterEntry, if_neg hother]

def DistinctKeys (entries : List (Value × Value)) : Prop :=
  entries.Pairwise fun e e' => Value.sameKey e.1 e'.1 = false

theorem value_foldl_of_mem {entries : List (Value × Value)} (hdistinct : DistinctKeys entries) {v : Value}
    (hmem : (.text k.name, v) ∈ entries) (s : Settings) :
    (entries.foldl afterEntry s).value k = if k.Accepts v then v else s.value k := by
  induction entries generalizing s with
  | nil => cases hmem
  | cons entry entries ih =>
    obtain ⟨hfirst, hrest⟩ := List.pairwise_cons.mp hdistinct
    have hsame : Value.sameKey (.text k.name) (.text k.name) = true := decide_eq_true rfl
    rw [List.foldl_cons]
    rcases List.mem_cons.mp hmem with rfl | hlater
    · have habsent : ∀ w, (.text k.name, w) ∉ entries := fun w hw => by
        cases hsame.symm.trans (hfirst _ hw)
      rw [value_foldl_of_absent habsent, value_afterEntry, SettingKey.ofValue?_eq_some_iff.mpr rfl]
      simp
    · have hother : ¬ (SettingKey.ofValue? entry.1 = some k ∧ k.Accepts entry.2) := by
        rintro ⟨hkey, -⟩
        have hdiffer := hfirst _ hlater
        rw [SettingKey.ofValue?_eq_some_iff.mp hkey] at hdiffer
        cases hsame.symm.trans hdiffer
      rw [ih hrest hlater, value_afterEntry, if_neg hother]

/-! What is left in the settings. -/

def listing (s : Settings) : List (Text × Value) := SettingKey.all.map fun k => (k.name, s.value k)

/-- Each setting has the value under its name if its rule accepts that, and its default otherwise. -/
structure DecidedBy (entries : List (Value × Value)) (s : Settings) : Prop where
  accepted : ∀ (k : SettingKey) v, (.text k.name, v) ∈ entries → k.Accepts v → s.value k = v
  refused : ∀ (k : SettingKey) v, (.text k.name, v) ∈ entries → ¬ k.Accepts v →
    s.value k = ({} : Settings).value k
  absent : ∀ k : SettingKey, (∀ v, (.text k.name, v) ∉ entries) → s.value k = ({} : Settings).value k

theorem decidedBy_foldl {entries : List (Value × Value)} (h : DistinctKeys entries) :
    DecidedBy entries (entries.foldl afterEntry {}) where
  accepted _ _ hmem hv := by rw [value_foldl_of_mem h hmem, if_pos hv]
  refused _ _ hmem hv := by rw [value_foldl_of_mem h hmem, if_neg hv]
  absent _ habsent := value_foldl_of_absent habsent {}

theorem DecidedBy.accepts {entries : List (Value × Value)} (h : s.DecidedBy entries) (k : SettingKey) :
    k.Accepts (s.value k) := by
  by_cases hpresent : ∃ v, (.text k.name, v) ∈ entries
  · obtain ⟨v, hv⟩ := hpresent
    by_cases haccepts : k.Accepts v
    · rw [h.accepted k v hv haccepts]
      exact haccepts
    · rw [h.refused k v hv haccepts]
      exact k.accepts_default
  · rw [h.absent k (not_exists.mp hpresent)]
    exact k.accepts_default

def valueNotices : Value → List SettingsNotice
  | .null => [.empty]
  | .map entries => entries.filterMap entryNotice?
  | v => [.notMapping v.typeName]

theorem isWarning_of_mem_valueNotices {v : Value} {n : SettingsNotice} (h : n ∈ valueNotices v) :
    n.event.isWarning = true := by
  have hentry {e : Value × Value} (he : entryNotice? e = some n) : n.event.isWarning = true := by
    unfold entryNotice? at he
    split at he
    · obtain rfl := Option.some.inj he
      rfl
    · split at he
      · cases he
      · obtain rfl := Option.some.inj he
        rfl
  cases v with
  | map entries =>
    obtain ⟨e, -, he⟩ := List.mem_filterMap.mp h
    exact hentry he
  | _ =>
    obtain rfl := List.mem_singleton.mp h
    rfl

end Settings
end EditorInsight
