import EditorInsight.Proofs.Text.Lines
import EditorInsight.Source.Reference

/-!
# The dotted chains of a text

A chain is told by what stands at a place: two to eleven identifiers joined by dots, with a word boundary on either
side. The chains of a text are found from left to right. Where there is one the longest is taken and the search goes
on behind it; where there is none it goes on one character further. A character that is neither a dot nor part of a
word divides the search.
-/

namespace EditorInsight.Source

open Text

/-- A chain at the start of a text that follows the character `before`. -/
structure Chain (before : Option Char) (t : Text) (parts : List Text) (rest : Text) : Prop where
  eq_append : t = joinDotted parts ++ rest
  two_le : 2 ≤ parts.length
  le_eleven : parts.length ≤ 11
  isIdentifier : ∀ part ∈ parts, Text.isIdentifier part = true
  boundary_before : isBoundary before t = true
  boundary_after : isBoundary (joinDotted parts).getLast? rest = true

structure LongestChain (before : Option Char) (t : Text) (parts : List Text) (rest : Text) : Prop
    extends Chain before t parts rest where
  longest : ∀ parts' rest', Chain before t parts' rest' → parts'.length ≤ parts.length

/-- The chains that are found from left to right, without overlap. -/
inductive Scan : Option Char → Text → List (List Text) → Prop where
  | done (before : Option Char) : Scan before [] []
  | found {before : Option Char} {t rest : Text} {parts : List Text} {more : List (List Text)}
      (h : LongestChain before t parts rest) (hrest : Scan (joinDotted parts).getLast? rest more) :
      Scan before t (parts :: more)
  | further {before : Option Char} {c : Char} {r : Text} {more : List (List Text)}
      (h : ∀ parts rest, ¬ Chain before (c :: r) parts rest) (hrest : Scan (some c) r more) :
      Scan before (c :: r) more

/-! What the search takes at one place. -/

def afterDots (names : List Text) : Text := names.flatMap ('.' :: ·)

theorem afterDots_cons (name : Text) (names : List Text) :
    afterDots (name :: names) = '.' :: (name ++ afterDots names) := rfl

theorem joinDotted_cons (name : Text) (names : List Text) : joinDotted (name :: names) = name ++ afterDots names := by
  induction names generalizing name with
  | nil => exact (List.append_nil name).symm
  | cons s names ih =>
    rw [joinDotted, join, ← joinDotted, ih, afterDots_cons]
    simp

theorem isIdentPart_head?_afterDots (names : List Text) {rest : Text} (h : startsWord rest = false) :
    ∀ c ∈ (afterDots names ++ rest).head?, isIdentPart c = false := by
  intro c hc
  cases names with
  | cons s names =>
    cases hc
    decide
  | nil =>
    cases rest with
    | nil => cases hc
    | cons d r =>
      cases hc
      rw [← Bool.not_eq_true]
      intro hpart
      rw [startsWord, isWordChar_of_isIdentPart hpart] at h
      cases h

theorem isBoundary_getLast?_joinDotted {parts : List Text} (hne : parts ≠ [])
    (hparts : ∀ part ∈ parts, isIdentifier part = true) (rest : Text) :
    isBoundary (joinDotted parts).getLast? rest = !startsWord rest := by
  obtain ⟨init, last, rfl⟩ := (List.eq_nil_or_concat parts).resolve_left hne
  rw [List.concat_eq_append] at hparts ⊢
  obtain ⟨u, hu⟩ := exists_join_append ['.'] init last
  obtain ⟨c, hlast, hpart⟩ := exists_getLast?_identifier (hparts last (by simp))
  rw [joinDotted, hu, List.getLast?_append, hlast, Option.some_or, isBoundary, Option.any_some,
    isWordChar_of_isIdentPart hpart, Bool.true_bne]

theorem links_eq {n : Nat} {t : Text} (hne : links n t ≠ []) :
    (links n t).length ≤ n ∧ (∀ name ∈ links n t, isIdentifier name = true) ∧
      ∃ rest, t = afterDots (links n t) ++ rest ∧ startsWord rest = false := by
  fun_induction links n t with
  | case1 => exact absurd rfl hne
  | case2 => exact absurd rfl hne
  | case3 n r name rest hread hmore hword ih =>
    obtain ⟨rfl, hname, -⟩ := identifier?_eq_some hread
    refine ⟨by simp, by simpa using hname, rest, ?_, Bool.eq_false_iff.mpr hword⟩
    simp [afterDots]
  | case4 n r name rest hread hmore ih =>
    obtain ⟨rfl, hname, -⟩ := identifier?_eq_some hread
    obtain ⟨hlength, hnames, rest', hrest, hword⟩ := ih hmore
    refine ⟨by simpa using hlength, List.forall_mem_cons.mpr ⟨hname, hnames⟩, rest', ?_, hword⟩
    rw [afterDots_cons, List.cons_append, List.append_assoc, ← hrest]
  | case5 => exact absurd rfl hne

theorem isPrefix_links {n : Nat} {names : List Text} {rest : Text} (hlength : names.length ≤ n)
    (hnames : ∀ name ∈ names, isIdentifier name = true) (hrest : startsWord rest = false) :
    names.IsPrefix (links n (afterDots names ++ rest)) := by
  induction names generalizing n with
  | nil => exact List.nil_prefix
  | cons name names ih =>
    obtain ⟨n, rfl⟩ := Nat.exists_eq_add_one_of_ne_zero (Nat.ne_zero_of_lt hlength)
    obtain ⟨hname, hnames⟩ := List.forall_mem_cons.mp hnames
    have hmore := ih (Nat.le_of_succ_le_succ hlength) hnames
    rw [afterDots_cons, List.cons_append, List.append_assoc, links,
      identifier?_append hname (isIdentPart_head?_afterDots names hrest)]
    dsimp only
    cases hlinks : links n (afterDots names ++ rest) with
    | nil =>
      rw [hlinks, List.prefix_nil] at hmore
      subst hmore
      rw [show startsWord (afterDots [] ++ rest) = false from hrest]
      exact List.prefix_rfl
    | cons s more =>
      rw [hlinks] at hmore
      exact List.cons_prefix_cons.mpr ⟨rfl, hmore⟩

theorem chain_of_chainAt? {before : Option Char} {t : Text} {parts : List Text} (hbefore : isBoundary before t = true)
    (h : chainAt? t = some parts) : ∃ rest, Chain before t parts rest := by
  unfold chainAt? at h
  cases hread : identifier? t with
  | none =>
    rw [hread] at h
    cases h
  | some p =>
    obtain ⟨name, r⟩ := p
    rw [hread] at h
    dsimp only at h
    split at h
    · cases h
    · rename_i hne
      obtain rfl := Option.some.inj h
      obtain ⟨rfl, hname, -⟩ := identifier?_eq_some hread
      obtain ⟨hlength, hnames, rest, hr, hword⟩ := links_eq hne
      have hparts : ∀ part ∈ name :: links maxLinks r, isIdentifier part = true :=
        List.forall_mem_cons.mpr ⟨hname, hnames⟩
      refine ⟨rest, ?_, ?_, ?_, hparts, hbefore, ?_⟩
      · rw [joinDotted_cons, List.append_assoc, ← hr]
      · exact Nat.succ_le_succ (List.length_pos_iff.mpr hne)
      · exact Nat.succ_le_succ hlength
      · rw [isBoundary_getLast?_joinDotted (List.cons_ne_nil _ _) hparts, hword, Bool.not_false]

theorem Chain.ne_nil {before : Option Char} {t rest : Text} {parts : List Text} (h : Chain before t parts rest) :
    parts ≠ [] :=
  List.length_pos_iff.mp (Nat.lt_of_lt_of_le Nat.zero_lt_two h.two_le)

theorem Chain.joinDotted_ne_nil {before : Option Char} {t rest : Text} {parts : List Text}
    (h : Chain before t parts rest) : joinDotted parts ≠ [] := by
  cases parts with
  | nil => exact absurd rfl h.ne_nil
  | cons name names =>
    have hname := h.isIdentifier name List.mem_cons_self
    rw [joinDotted_cons]
    cases name with
    | nil => cases hname
    | cons c name => exact List.cons_ne_nil _ _

theorem Chain.startsWord_rest {before : Option Char} {t rest : Text} {parts : List Text}
    (h : Chain before t parts rest) : startsWord rest = false := by
  have hafter := h.boundary_after
  rw [isBoundary_getLast?_joinDotted h.ne_nil h.isIdentifier] at hafter
  simpa using hafter

theorem Chain.isPrefix_chainAt? {before : Option Char} {t rest : Text} {parts : List Text}
    (h : Chain before t parts rest) : ∃ taken, chainAt? t = some taken ∧ parts.IsPrefix taken := by
  cases parts with
  | nil => exact absurd rfl h.ne_nil
  | cons name names =>
    obtain ⟨hname, hnames⟩ := List.forall_mem_cons.mp h.isIdentifier
    have hlinks : names.IsPrefix (links maxLinks (afterDots names ++ rest)) :=
      isPrefix_links (Nat.le_of_succ_le_succ h.le_eleven) hnames h.startsWord_rest
    refine ⟨name :: links maxLinks (afterDots names ++ rest), ?_, List.cons_prefix_cons.mpr ⟨rfl, hlinks⟩⟩
    rw [h.eq_append, joinDotted_cons, List.append_assoc, chainAt?,
      identifier?_append hname (isIdentPart_head?_afterDots names h.startsWord_rest)]
    dsimp only
    split
    · rename_i hnil
      rw [hnil, List.prefix_nil] at hlinks
      subst hlinks
      exact absurd h.two_le (by simp)
    · rfl

theorem longestChain_of_chainAt? {before : Option Char} {t : Text} {parts : List Text}
    (hbefore : isBoundary before t = true) (h : chainAt? t = some parts) :
    ∃ rest, LongestChain before t parts rest := by
  obtain ⟨rest, hchain⟩ := chain_of_chainAt? hbefore h
  refine ⟨rest, hchain, fun parts' rest' h' => ?_⟩
  obtain ⟨taken, htaken, hprefix⟩ := h'.isPrefix_chainAt?
  obtain rfl := Option.some.inj (h.symm.trans htaken)
  exact hprefix.length_le

theorem LongestChain.chainAt?_eq {before : Option Char} {t rest : Text} {parts : List Text}
    (h : LongestChain before t parts rest) : chainAt? t = some parts := by
  obtain ⟨taken, htaken, hprefix⟩ := h.isPrefix_chainAt?
  obtain ⟨rest', hchain⟩ := chain_of_chainAt? h.boundary_before htaken
  rw [htaken, hprefix.eq_of_length_le (h.longest taken rest' hchain)]

/-! The whole search. -/

theorem chainsFrom_append (before : Option Char) (u t : Text) :
    chainsFrom before u.length (u ++ t) = chainsFrom (u.getLast?.or before) 0 t := by
  induction u generalizing before with
  | nil => rfl
  | cons c u ih =>
    rw [List.length_cons, List.cons_append, chainsFrom, ih, List.getLast?_cons, Option.some_or]
    cases u.getLast? <;> rfl

theorem chainsFrom_of_longestChain {before : Option Char} {t rest : Text} {parts : List Text}
    (h : LongestChain before t parts rest) :
    chainsFrom before 0 t = parts :: chainsFrom (joinDotted parts).getLast? 0 rest := by
  have htaken := h.chainAt?_eq
  have hbefore := h.boundary_before
  have hskip := chainsFrom_append none (joinDotted parts) rest
  have ht := h.eq_append
  rw [Option.or_none] at hskip
  rw [← hskip]
  cases hjoin : joinDotted parts with
  | nil => exact absurd hjoin h.joinDotted_ne_nil
  | cons c u =>
    rw [hjoin, List.cons_append] at ht
    subst ht
    rw [List.cons_append, chainsFrom, if_pos hbefore, htaken]
    dsimp only
    rw [hjoin]
    rfl

theorem chainsFrom_of_no_chain {before : Option Char} {c : Char} {r : Text}
    (h : ∀ parts rest, ¬ Chain before (c :: r) parts rest) :
    chainsFrom before 0 (c :: r) = chainsFrom (some c) 0 r := by
  rw [chainsFrom]
  split
  · rename_i parts htaken
    split at htaken
    · rename_i hbefore
      obtain ⟨rest, hchain⟩ := chain_of_chainAt? hbefore htaken
      exact absurd hchain (h parts rest)
    · cases htaken
  · rfl

theorem scan_chainsFrom (before : Option Char) (t : Text) : Scan before t (chainsFrom before 0 t) := by
  induction hlength : t.length using Nat.strong_induction_on generalizing before t with
  | _ n ih =>
    subst hlength
    cases t with
    | nil => exact .done before
    | cons c r =>
      by_cases hchain : ∃ parts rest, LongestChain before (c :: r) parts rest
      · obtain ⟨parts, rest, h⟩ := hchain
        rw [chainsFrom_of_longestChain h]
        have hshorter : rest.length < (c :: r).length := by
          rw [h.eq_append, List.length_append]
          exact Nat.lt_add_of_pos_left (List.length_pos_iff.mpr h.joinDotted_ne_nil)
        exact .found h (ih _ hshorter _ _ rfl)
      · have hnone : ∀ parts rest, ¬ Chain before (c :: r) parts rest := by
          intro parts rest h
          obtain ⟨taken, htaken, -⟩ := h.isPrefix_chainAt?
          obtain ⟨rest', hlongest⟩ := longestChain_of_chainAt? h.boundary_before htaken
          exact hchain ⟨taken, rest', hlongest⟩
        rw [chainsFrom_of_no_chain hnone]
        exact .further hnone (ih _ (Nat.lt_succ_self _) _ _ rfl)

/-- There is one way to search a text. -/
theorem scan_iff {before : Option Char} {t : Text} {chains : List (List Text)} :
    Scan before t chains ↔ chains = chainsFrom before 0 t := by
  constructor
  · intro h
    induction h with
    | done => rfl
    | found h _ ih => rw [chainsFrom_of_longestChain h, ih]
    | further h _ ih => rw [chainsFrom_of_no_chain h, ih]
  · rintro rfl
    exact scan_chainsFrom before t

/-! Texts that are divided by a character outside words. -/

section Divided

variable {d : Char} (hword : isWordChar d = false) (hdot : d ≠ '.')
include hword

theorem startsWord_append_cons (t u : Text) : startsWord (t ++ d :: u) = startsWord t := by
  cases t with
  | nil => exact hword
  | cons c r => rfl

theorem isBoundary_append_cons (before : Option Char) (t u : Text) :
    isBoundary before (t ++ d :: u) = isBoundary before t := by
  rw [isBoundary, startsWord_append_cons hword, isBoundary]

include hdot

theorem not_mem_joinDotted {parts : List Text} (h : ∀ part ∈ parts, isIdentifier part = true) :
    d ∉ joinDotted parts := by
  have hpart : isIdentPart d = false := by
    rw [← Bool.not_eq_true]
    intro hpart
    rw [isWordChar_of_isIdentPart hpart] at hword
    cases hword
  cases parts with
  | nil => exact List.not_mem_nil
  | cons name names =>
    obtain ⟨hname, hnames⟩ := List.forall_mem_cons.mp h
    rw [joinDotted_cons, List.mem_append, afterDots, List.mem_flatMap]
    rintro (hmem | ⟨s, hs, hmem⟩)
    · exact not_mem_identifier hname hpart hmem
    · rcases List.mem_cons.mp hmem with rfl | hmem
      · exact hdot rfl
      · exact not_mem_identifier (hnames s hs) hpart hmem

theorem chain_append_cons_iff {before : Option Char} {t u rest : Text} {parts : List Text} :
    Chain before (t ++ d :: u) parts rest ↔ ∃ r, rest = r ++ d :: u ∧ Chain before t parts r := by
  constructor
  · intro h
    obtain ⟨r, ht, rfl⟩ : ∃ r, t = joinDotted parts ++ r ∧ rest = r ++ d :: u := by
      rcases List.append_eq_append_iff.mp h.eq_append with ⟨x, hjoin, hx⟩ | ⟨x, ht, hrest⟩
      · cases x with
        | nil => exact ⟨[], by simp [hjoin], by simpa using hx.symm⟩
        | cons c x =>
          -- the chain would go past the character that divides
          obtain ⟨rfl, -⟩ := List.cons.inj hx
          exact absurd (by simp [hjoin]) (not_mem_joinDotted hword hdot h.isIdentifier)
      · exact ⟨x, ht, hrest⟩
    have hbefore := h.boundary_before
    have hafter := h.boundary_after
    rw [isBoundary_append_cons hword] at hbefore hafter
    exact ⟨r, rfl, ht, h.two_le, h.le_eleven, h.isIdentifier, hbefore, hafter⟩
  · rintro ⟨r, rfl, h⟩
    refine ⟨?_, h.two_le, h.le_eleven, h.isIdentifier, ?_, ?_⟩
    · rw [h.eq_append, List.append_assoc]
    · rw [isBoundary_append_cons hword, h.boundary_before]
    · rw [isBoundary_append_cons hword, h.boundary_after]

theorem Scan.append {before : Option Char} {t u : Text} {chains more : List (List Text)} (h : Scan before t chains)
    (hmore : Scan (some d) u more) : Scan before (t ++ d :: u) (chains ++ more) := by
  induction h with
  | done before =>
    refine .further (fun parts rest h => ?_) hmore
    obtain ⟨r, -, h⟩ := (chain_append_cons_iff hword hdot (t := [])).mp h
    exact h.joinDotted_ne_nil (List.append_eq_nil_iff.mp h.eq_append.symm).1
  | found h _ ih =>
    refine .found ⟨(chain_append_cons_iff hword hdot).mpr ⟨_, rfl, h.toChain⟩, fun parts' rest' h' => ?_⟩ ih
    obtain ⟨r, -, h'⟩ := (chain_append_cons_iff hword hdot).mp h'
    exact h.longest parts' r h'
  | further h _ ih =>
    refine .further (fun parts rest h' => ?_) ih
    obtain ⟨r, -, h'⟩ := (chain_append_cons_iff hword hdot (t := _ :: _)).mp h'
    exact h parts r h'

omit hdot in
theorem chainsFrom_some (t : Text) : chainsFrom (some d) 0 t = chainsFrom none 0 t := by
  cases t with
  | nil => rfl
  | cons c r => rw [chainsFrom, chainsFrom, isBoundary, Option.any_some, hword, isBoundary, Option.any_none]

/-- A character that is neither a dot nor part of a word divides the chains of a text. -/
theorem references_append_cons (t u : Text) : references (t ++ d :: u) = references t ++ references u := by
  have hmore := scan_chainsFrom (some d) u
  rw [chainsFrom_some hword] at hmore
  exact (scan_iff.mp ((scan_chainsFrom none t).append hword hdot hmore)).symm

end Divided

end EditorInsight.Source
