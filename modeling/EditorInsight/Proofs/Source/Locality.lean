import EditorInsight.Proofs.Source.Findings
import EditorInsight.Proofs.Source.WrittenHeader

/-!
# Texts put one below the other

A header that starts in some lines is settled by them if it is complete within them, or if they use up the
line budget. Where this holds of every header, and the next line is unindented and says something, the
lines above declare what they declare alone: no header and no class body reaches below. The outline of
both is then the upper outline with the entries of the lower one assigned into it.
-/

namespace EditorInsight

open Text

namespace Header

/-! A header that the lines settle. -/

/-- Every header that starts in the lines is collected from them, or they use up its line budget. -/
def Settled (maxLines : Int) (lines : List Text) : Prop :=
  ∀ (i : Nat) (line : Text), lines[i]? = some line → isStart line = true →
    (collectAt? maxLines lines i).isSome = true ∨ maxLines ≤ ((lines.length - i : Nat) : Int)

theorem Settled.tail {maxLines : Int} {line : Text} {rest : List Text}
    (h : Settled maxLines (line :: rest)) : Settled maxLines rest := by
  intro i l hl hstart
  have hnext := h (i + 1) l (by simpa using hl) hstart
  have hcollect : collectAt? maxLines (line :: rest) ((i + 1 : Nat) : Int) =
      collectAt? maxLines rest i := by
    rw [collectAt?, collectAt?, if_neg (by omega), if_neg (by omega)]
    rfl
  rw [hcollect, List.length_cons, Nat.add_sub_add_right] at hnext
  exact hnext

theorem collectFrom_append_of_some {joined : Option Text} {used : Nat} {depth budget : Int}
    {lines : List Text} {c : CollectedHeader}
    (h : collectFrom joined used depth budget lines = some c) (more : List Text) :
    collectFrom joined used depth budget (lines ++ more) = some c ∧
      c.lineCount ≤ used + lines.length := by
  obtain ⟨n, hlength, hbudget, hstop, hfirst, rfl⟩ := collectFrom_eq_some_iff.mp h
  have htake : (lines ++ more).take (n + 1) = lines.take (n + 1) := List.take_append_of_le_length hlength
  refine ⟨collectFrom_eq_some_iff.mpr ⟨n, ?_, hbudget, ?_, fun m hm => ?_, ?_⟩, Nat.add_le_add_left hlength used⟩
  · rw [List.length_append]
    omega
  · exact (stopsAfter_congr joined depth htake (Nat.le_refl _)).mpr hstop
  · exact mt (stopsAfter_congr joined depth htake (by omega)).mp (hfirst m hm)
  · rw [joinedText, joinedText, htake]

/-- Where the lines use up the budget, the lines below are not looked at. -/
theorem collectFrom_append_of_budget (joined : Option Text) (used : Nat) (depth : Int) {budget : Int}
    {lines : List Text} (hne : lines ≠ []) (h : budget ≤ lines.length) (more : List Text) :
    collectFrom joined used depth budget (lines ++ more) =
      collectFrom joined used depth budget lines := by
  induction lines generalizing joined used depth budget with
  | nil => exact absurd rfl hne
  | cons line rest ih =>
    rw [List.cons_append, collectFrom_cons, collectFrom_cons]
    split
    · rfl
    · split
      · rfl
      · rename_i hbudget
        rw [List.length_cons] at h
        push_cast at h
        refine ih _ _ _ ?_ (by omega)
        rintro rfl
        simp at h
        omega

theorem Settled.collect?_append {maxLines : Int} {line : Text} {rest : List Text}
    (h : Settled maxLines (line :: rest)) (more : List Text) :
    collect? maxLines (line :: (rest ++ more)) = collect? maxLines (line :: rest) := by
  rw [collect?, collect?]
  split
  · rename_i hstart
    have hhere := h 0 line rfl hstart
    have hcollect : collectAt? maxLines (line :: rest) ((0 : Nat) : Int) =
        collectFrom none 0 0 maxLines (line :: rest) := by
      rw [collectAt?, if_neg (by omega)]
      exact if_pos hstart
    rw [hcollect] at hhere
    rcases hhere with hsome | hbudget
    · obtain ⟨c, hc⟩ := Option.isSome_iff_exists.mp hsome
      rw [hc]
      exact (collectFrom_append_of_some hc more).1
    · exact collectFrom_append_of_budget none 0 0 (by simp) hbudget more
  · rfl

theorem lineCount_le_of_read? {maxLines : Int} {lines : List Text} {hd : Header} {n : Nat}
    (h : read? maxLines lines = some (hd, n)) : n ≤ lines.length := by
  unfold read? at h
  split at h
  · simp at h
  · rename_i c hcollect
    obtain ⟨hd', -, heq⟩ := Option.map_eq_some_iff.mp h
    obtain ⟨-, rfl⟩ := Prod.mk.inj heq
    unfold collect? at hcollect
    split at hcollect
    · simp at hcollect
    · split at hcollect
      · simpa using (collectFrom_append_of_some hcollect []).2
      · simp at hcollect

end Header

namespace Outline

/-- The line ends the body of a class and is no part of a declaration above it. -/
def StartsAnew (line : Text) : Prop := isTopLevel line = true ∧ isSkippable line = false

variable {layout : Layout} {first : Text} {below : List Text}

theorem headerAt?_append (cut : Text → Text) {line : Text} {rest : List Text}
    (h : Header.Settled layout.maxHeaderLines (line :: rest)) (more : List Text) :
    headerAt? layout cut line (rest ++ more) = headerAt? layout cut line rest := by
  rw [headerAt?, headerAt?, Header.read?, Header.read?, h.collect?_append]

theorem lineCount_le_of_headerAt? {cut : Text → Text} {line : Text} {rest : List Text} {hd : Header}
    {n : Nat} (h : headerAt? layout cut line rest = some (hd, n)) : n - 1 ≤ rest.length := by
  unfold headerAt? at h
  split at h
  · have hcount := Header.lineCount_le_of_read? h
    rw [List.length_cons] at hcount
    omega
  · simp at h

/-- A class body ends before the line that starts anew. -/
theorem methodFindings_append {lines : List Text} (hfirst : StartsAnew first)
    (hlines : Header.Settled layout.maxHeaderLines lines) {skip : Nat} (hskip : skip ≤ lines.length)
    (index : Nat) :
    methodFindings layout skip index (lines ++ first :: below) =
      methodFindings layout skip index lines := by
  induction lines generalizing skip index with
  | nil =>
    obtain rfl : skip = 0 := by simpa using hskip
    simp [methodFindings, hfirst.1, hfirst.2]
  | cons line rest ih =>
    rw [List.cons_append]
    cases skip with
    | succ k => exact ih hlines.tail (by simpa using hskip) (index + 1)
    | zero =>
      simp only [methodFindings, headerAt?_append trim hlines, ih hlines.tail (Nat.zero_le _)]
      split
      · rfl
      · split
        · rfl
        · split
          · rfl
          · cases hheader : headerAt? layout trim line rest with
            | none => rfl
            | some found => simp only [ih hlines.tail (lineCount_le_of_headerAt? hheader)]

theorem bodyMethods_append {lines : List Text} (hfirst : StartsAnew first)
    (hlines : Header.Settled layout.maxHeaderLines lines) (owner : Text) :
    bodyMethods layout owner 0 {} (lines ++ first :: below) = bodyMethods layout owner 0 {} lines := by
  rw [bodyMethods_eq_foldl layout owner 0 0, bodyMethods_eq_foldl layout owner 0 0,
    methodFindings_append hfirst hlines (Nat.zero_le _)]

theorem findingAt?_append {line : Text} {rest : List Text} (hfirst : StartsAnew first)
    (hlines : Header.Settled layout.maxHeaderLines (line :: rest)) (index : Nat) :
    findingAt? layout index line (rest ++ first :: below) = findingAt? layout index line rest := by
  simp only [findingAt?, headerAt?_append trimRight hlines, bodyMethods_append hfirst hlines.tail]

theorem skip_le_of_findingAt? {index n : Nat} {line : Text} {rest : List Text} {f : Finding}
    (h : findingAt? layout index line rest = some (f, n)) : n ≤ rest.length := by
  obtain ⟨-, -, ⟨hd, m, hheader, rfl, -⟩ | ⟨_, _, -, rfl, -⟩ | ⟨_, -, rfl, -⟩⟩ := findingAt?_cases h
  · exact lineCount_le_of_headerAt? hheader
  · exact Nat.zero_le _
  · exact Nat.zero_le _

/-- The lines above find what they find alone, and the lines below are scanned from their first one. -/
theorem findings_append {lines : List Text} (hfirst : StartsAnew first)
    (hlines : Header.Settled layout.maxHeaderLines lines) {skip : Nat} (hskip : skip ≤ lines.length)
    (index : Nat) :
    findings layout skip index (lines ++ first :: below) =
      findings layout skip index lines ++ findings layout 0 (index + lines.length) (first :: below) := by
  induction lines generalizing skip index with
  | nil =>
    obtain rfl : skip = 0 := by simpa using hskip
    rfl
  | cons line rest ih =>
    have hindex : index + (line :: rest).length = index + 1 + rest.length := by
      rw [List.length_cons]
      omega
    rw [List.cons_append, hindex]
    cases skip with
    | succ k => exact ih hlines.tail (by simpa using hskip) (index + 1)
    | zero =>
      rw [findings, findings, findingAt?_append hfirst hlines]
      cases hat : findingAt? layout index line rest with
      | none => exact ih hlines.tail (Nat.zero_le _) (index + 1)
      | some found =>
        have hrest := ih hlines.tail (skip_le_of_findingAt? hat) (index + 1)
        exact congrArg (found.1 :: ·) hrest

/-! Outlines as maps. -/

/-- The outline with the entries of another assigned into it. The methods of a class are replaced as a
whole. -/
def updated (o p : Outline) : Outline := ⟨o.topLevel.updated p.topLevel, o.methods.updated p.methods⟩

theorem methods_foldl_record (fs : List Finding) (o : Outline) :
    (fs.foldl record o).methods = (fs.filter fun f => !f.methods.isEmpty).foldl
      (fun m f => m.put f.symbol.name f.methods) o.methods := by
  induction fs generalizing o with
  | nil => rfl
  | cons f fs ih =>
    rw [List.foldl_cons, ih, record]
    cases hempty : f.methods.isEmpty with
    | true =>
      rw [List.filter_cons_of_neg (by simp [hempty])]
      rfl
    | false =>
      rw [List.filter_cons_of_pos (by simp [hempty])]
      rfl

/-- Every key of the outline stands once. -/
structure KeysDistinct (o : Outline) : Prop where
  topLevel : o.topLevel.keys.Nodup
  methods : o.methods.keys.Nodup

theorem keysDistinct_ofText (layout : Layout) (t : Text) : (ofText layout t).KeysDistinct := by
  rw [ofText_eq_foldl]
  constructor
  · rw [topLevel_foldl_record]
    exact OrderedMap.nodup_keys_foldl_put _ _ _ List.nodup_nil
  · rw [methods_foldl_record]
    exact OrderedMap.nodup_keys_foldl_put _ _ _ List.nodup_nil

/-- Recording findings is assigning the outline that they make. -/
theorem foldl_record_eq_updated {o : Outline} (ho : o.KeysDistinct) (fs : List Finding) :
    fs.foldl record o = o.updated (fs.foldl record {}) := by
  have htop : (fs.foldl record o).topLevel = (o.updated (fs.foldl record {})).topLevel := by
    rw [updated, topLevel_foldl_record, topLevel_foldl_record,
      OrderedMap.foldl_put_eq_updated _ _ ho.topLevel]
  have hmethods : (fs.foldl record o).methods = (o.updated (fs.foldl record {})).methods := by
    rw [updated, methods_foldl_record, methods_foldl_record,
      OrderedMap.foldl_put_eq_updated _ _ ho.methods]
  cases hfold : fs.foldl record o with
  | mk topLevel methods =>
    rw [hfold] at htop hmethods
    simp only at htop hmethods
    rw [htop, hmethods]

end Outline

namespace Outline

/-- The outline of lines whose headers are all settled, with lines below them that start anew, is the
outline of the lines above with the entries of the outline below assigned into it. -/
theorem ofText_join_append (layout : Layout) (above : List Text) (first : Text) (below : List Text)
    (hne : above ≠ [])
    (hclean : ∀ line ∈ above ++ first :: below, '\r' ∉ line ∧ '\n' ∉ line)
    (hfirst : StartsAnew first) (habove : Header.Settled layout.maxHeaderLines above) :
    ofText layout (join ['\n'] (above ++ first :: below)) =
      (ofText layout (join ['\n'] above)).updated (ofText layout (join ['\n'] (first :: below))) := by
  have hupper : splitLines (join ['\n'] above) = above :=
    splitLines_join hne fun line hline => hclean line (List.mem_append_left _ hline)
  have hlower : splitLines (join ['\n'] (first :: below)) = first :: below :=
    splitLines_join (by simp) fun line hline => hclean line (List.mem_append_right _ hline)
  have hfindings : findings layout 0 0 (above ++ first :: below) =
      findings layout 0 0 above ++ findings layout 0 above.length (first :: below) := by
    rw [findings_append hfirst habove (Nat.zero_le _), Nat.zero_add]
  have hscan : ofText layout (join ['\n'] (above ++ first :: below)) =
      (findings layout 0 above.length (first :: below)).foldl record
        (ofText layout (join ['\n'] above)) := by
    rw [ofText, splitLines_join (by simp) hclean, scan_eq_foldl layout 0 0, hfindings,
      List.foldl_append, ofText, hupper, scan_eq_foldl layout 0 0]
  have hbelow : ofText layout (join ['\n'] (first :: below)) =
      (findings layout 0 above.length (first :: below)).foldl record {} := by
    rw [ofText, hlower, scan_eq_foldl layout 0 above.length]
  rw [hscan, hbelow, foldl_record_eq_updated (keysDistinct_ofText layout _)]

theorem ofText_join_append_redefined :
    let layout : Layout := { maxHeaderLines := 3 }
    let above : List Text := ["class C:", "    def one(self,", "            a):", "        pass",
      "x = 1", "def open(", "    a,", "    b,"]
    let first : Text := "class C(B):"
    let below : List Text := ["    def two(self): pass", "x = 2"]
    (∀ line ∈ above ++ first :: below, '\r' ∉ line ∧ '\n' ∉ line) ∧ StartsAnew first ∧
      Header.Settled layout.maxHeaderLines above ∧
      ofText layout (join ['\n'] (above ++ first :: below)) =
        (ofText layout (join ['\n'] above)).updated (ofText layout (join ['\n'] (first :: below))) ∧
      (ofText layout (join ['\n'] (above ++ first :: below))).topLevel.entries.map Prod.snd =
        [classSymbol "C" "B", Symbol.binding "x"] := by
  intro layout above first below
  have hclean : ∀ line ∈ above ++ first :: below, '\r' ∉ line ∧ '\n' ∉ line := by decide +kernel
  have hfirst : StartsAnew first := ⟨by decide, by decide⟩
  have hbounded : ∀ i < above.length, ∀ line ∈ above[i]?, Header.isStart line = true →
      (Header.collectAt? 3 above i).isSome = true ∨ (3 : Int) ≤ ((above.length - i : Nat) : Int) := by
    decide +kernel
  have hsettled : Header.Settled layout.maxHeaderLines above := by
    intro i line hline
    exact hbounded i (List.getElem?_eq_some_iff.mp hline).1 line hline
  refine ⟨hclean, hfirst, hsettled, ?_, by decide +kernel⟩
  exact ofText_join_append layout above first below (by decide) hclean hfirst hsettled

end Outline
end EditorInsight
