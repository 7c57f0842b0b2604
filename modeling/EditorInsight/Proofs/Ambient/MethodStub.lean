import Mathlib.Data.List.Infix
import EditorInsight.Ambient.Schema
import EditorInsight.Proofs.Text.Blank

/-!
# Method stubs as they are written

A stub `def name(self, parameters) -> result: ...` is shown in two ways. The detail of a completion is read off
the stub up to its last closing parenthesis; the call signature is what remains of the stub after passages of it
have been replaced. Both come to `name(parameters) -> result`, whatever brackets, colons and dots stand among the
parameters, as long as no second `(self` does.
-/

namespace EditorInsight

open Text

namespace Stub

/-! Replacing passages. -/

variable {passage? : Text → Option Text} {replacement mark : Text}

theorem replaceAll_skip (x y : Text) :
    replaceAll passage? replacement x.length (x ++ y) = replaceAll passage? replacement 0 y := by
  induction x with
  | nil => rfl
  | cons c x ih => rw [List.length_cons, List.cons_append, replaceAll, ih]

theorem replaceAll_passage {c : Char} {x y : Text} (h : passage? (c :: (x ++ y)) = some y) :
    replaceAll passage? replacement 0 (c :: (x ++ y)) =
      replacement ++ replaceAll passage? replacement 0 y := by
  have hlength : (x ++ y).length - y.length = x.length := by simp
  rw [replaceAll, h]
  dsimp only
  rw [hlength, replaceAll_skip]

theorem replaceAll_cons {c : Char} {r : Text} (h : passage? (c :: r) = none) :
    replaceAll passage? replacement 0 (c :: r) = c :: replaceAll passage? replacement 0 r := by
  rw [replaceAll, h]

theorem replaceAll_eq_self (hmark : ∀ s r, passage? s = some r → mark <+: s) {t : Text}
    (ht : ¬ mark <:+: t) : replaceAll passage? replacement 0 t = t := by
  induction t with
  | nil => rfl
  | cons c t ih =>
    have hnone : passage? (c :: t) = none := by
      by_contra hsome
      obtain ⟨r, hr⟩ := Option.ne_none_iff_exists'.mp hsome
      exact ht (hmark _ r hr).isInfix
    rw [replaceAll_cons hnone, ih fun h => ht (List.infix_cons h)]

theorem replaceAll_append {m : Char} (hmark : ∀ s r, passage? s = some r → m :: mark <+: s) {x : Text}
    (hx : m ∉ x) (y : Text) : replaceAll passage? replacement 0 (x ++ y) =
      x ++ replaceAll passage? replacement 0 y := by
  induction x with
  | nil => rfl
  | cons c x ih =>
    rw [List.mem_cons, not_or] at hx
    have hnone : passage? (c :: (x ++ y)) = none := by
      by_contra hsome
      obtain ⟨r, hr⟩ := Option.ne_none_iff_exists'.mp hsome
      exact hx.1 (List.cons_prefix_cons.mp (hmark _ r hr)).1
    rw [List.cons_append, replaceAll_cons hnone, ih hx.2, List.cons_append]

theorem isPrefix_of_afterSelfComma? (s r : Text) (h : afterSelfComma? s = some r) : ("(self" : Text) <+: s := by
  cases hs : after? "(self" s with
  | none =>
    rw [afterSelfComma?, hs] at h
    cases h
  | some u => exact ⟨u, (after?_eq_some_iff.mp hs).symm⟩

theorem isPrefix_of_afterSelfClose? (s r : Text) (h : afterSelfClose? s = some r) : ("(self" : Text) <+: s := by
  cases hs : after? "(self" s with
  | none =>
    rw [afterSelfClose?, hs] at h
    cases h
  | some u => exact ⟨u, (after?_eq_some_iff.mp hs).symm⟩

theorem dropEllipsis_append (t : Text) : dropEllipsis (t ++ ": ...") = trimRight t := by
  have hreverse : (t ++ (": ..." : Text)).reverse = '.' :: '.' :: '.' :: ' ' :: ':' :: t.reverse := by
    rw [List.reverse_append]
    rfl
  rw [dropEllipsis, hreverse]
  rfl

end Stub

structure MethodStub where
  name : Text
  parameters : Text
  result : Option Text

namespace MethodStub

/-- The name is a word, the parameters stand on one line and do not mention `self` where it is looked for, and
the result has neither a colon nor parentheses. -/
structure WellFormed (m : MethodStub) : Prop where
  name_ne_nil : m.name ≠ []
  isWordChar_of_mem_name : ∀ c ∈ m.name, isWordChar c = true
  trim_parameters : trim m.parameters = m.parameters
  newline_not_mem_parameters : '\n' ∉ m.parameters
  not_self_parameters : ¬ ("self" : Text) <+: m.parameters
  not_inner_self : ¬ ("(self" : Text) <:+: m.parameters
  result_ne_nil : ∀ r ∈ m.result, r ≠ []
  trim_result : ∀ r ∈ m.result, trim r = r
  not_mem_result : ∀ r ∈ m.result, ':' ∉ r ∧ '(' ∉ r ∧ ')' ∉ r

instance (m : MethodStub) : Decidable m.WellFormed :=
  decidable_of_iff (m.name ≠ [] ∧ (∀ c ∈ m.name, isWordChar c = true) ∧ trim m.parameters = m.parameters ∧
      '\n' ∉ m.parameters ∧ ¬ ("self" : Text) <+: m.parameters ∧ ¬ ("(self" : Text) <:+: m.parameters ∧
      (∀ r ∈ m.result, r ≠ []) ∧ (∀ r ∈ m.result, trim r = r) ∧ ∀ r ∈ m.result, ':' ∉ r ∧ '(' ∉ r ∧ ')' ∉ r)
    ⟨fun ⟨h₁, h₂, h₃, h₄, h₅, h₆, h₇, h₈, h₉⟩ => ⟨h₁, h₂, h₃, h₄, h₅, h₆, h₇, h₈, h₉⟩,
      fun ⟨h₁, h₂, h₃, h₄, h₅, h₆, h₇, h₈, h₉⟩ => ⟨h₁, h₂, h₃, h₄, h₅, h₆, h₇, h₈, h₉⟩⟩

def arrow (m : MethodStub) : Text :=
  match m.result with
  | none => []
  | some r => ' ' :: '-' :: '>' :: ' ' :: r

def afterSelf (m : MethodStub) : Text :=
  if m.parameters = [] then [] else ',' :: ' ' :: m.parameters

def text (m : MethodStub) : Text :=
  "def " ++ (m.name ++ ("(self" ++ (m.afterSelf ++ ')' :: (m.arrow ++ ": ..."))))

def shown (m : MethodStub) : Text := m.name ++ '(' :: (m.parameters ++ ')' :: m.arrow)

variable {m : MethodStub}

/-! What the parts end with. -/

theorem WellFormed.exists_parameters (hm : m.WellFormed) (hne : m.parameters ≠ []) :
    ∃ c r, m.parameters = c :: r ∧ isBlank c = false := by
  obtain ⟨c, -, hfirst, hc, -, -⟩ := exists_ends_of_trim_eq hne hm.trim_parameters
  obtain ⟨r, hr⟩ := List.head?_eq_some_iff.mp hfirst
  exact ⟨c, r, hr, hc⟩

theorem WellFormed.exists_name (hm : m.WellFormed) : ∃ c r, m.name = c :: r ∧ isBlank c = false := by
  obtain ⟨c, r, hr⟩ := List.exists_cons_of_ne_nil hm.name_ne_nil
  refine ⟨c, r, hr, ?_⟩
  by_contra hc
  have hword := hm.isWordChar_of_mem_name c (hr ▸ List.mem_cons_self)
  rw [isWordChar_of_isBlank (Bool.not_eq_false _ ▸ hc)] at hword
  cases hword

theorem WellFormed.not_mem_name (hm : m.WellFormed) : '(' ∉ m.name := fun h =>
  absurd (hm.isWordChar_of_mem_name '(' h) (by decide +kernel)

theorem WellFormed.not_mem_arrow (hm : m.WellFormed) : ':' ∉ m.arrow ∧ '(' ∉ m.arrow ∧ ')' ∉ m.arrow := by
  unfold arrow
  cases hr : m.result with
  | none => simp
  | some r =>
    obtain ⟨hcolon, hopen, hclose⟩ := hm.not_mem_result r hr
    simp [hcolon, hopen, hclose]

theorem WellFormed.trimRight_shown (hm : m.WellFormed) : trimRight m.shown = m.shown := by
  have hclose := trimRight_append_cons (c := ')') (by decide) (m.name ++ '(' :: m.parameters) m.arrow
  have harrow : trimRight m.arrow = m.arrow := by
    unfold arrow
    cases hr : m.result with
    | none => rfl
    | some r =>
      obtain ⟨-, d, -, -, hlast, hd⟩ := exists_ends_of_trim_eq (hm.result_ne_nil r hr) (hm.trim_result r hr)
      obtain ⟨u, rfl⟩ := List.getLast?_eq_some_iff.mp hlast
      exact trimRight_append_cons hd (' ' :: '-' :: '>' :: ' ' :: u) []
  rw [harrow] at hclose
  simpa [shown] using hclose

/-! The detail. -/

theorem WellFormed.dropSelf_append (hm : m.WellFormed) (t : Text) :
    Stub.dropSelf ("self" ++ (m.afterSelf ++ ')' :: t)) = m.parameters ++ ')' :: t := by
  rw [Stub.dropSelf, after?_append]
  by_cases hnil : m.parameters = []
  · rw [afterSelf, if_pos hnil, hnil]
    rfl
  · obtain ⟨c, r, hr, hc⟩ := hm.exists_parameters hnil
    rw [afterSelf, if_neg hnil, hr]
    change trimLeft ([' '] ++ (c :: r ++ ')' :: t)) = _
    rw [trimLeft_blanks_append isBlank_of_mem_space]
    exact trimLeft_cons hc _

theorem WellFormed.beforeLast?_parameters (hm : m.WellFormed) :
    beforeLast? ')' (Stub.restOfLine (m.parameters ++ ')' :: (m.arrow ++ ": ..."))) = some m.parameters := by
  have hline : ∀ c ∈ m.parameters, (c != '\n') = true := fun c hc =>
    bne_iff_ne.mpr fun heq => hm.newline_not_mem_parameters (heq ▸ hc)
  have hbody : ')' ∉ (": ..." : Text) := by decide
  have hrest : ')' ∉ (m.arrow ++ ": ...").takeWhile (· != '\n') := fun h =>
    (List.mem_append.mp ((List.takeWhile_prefix _).subset h)).elim hm.not_mem_arrow.2.2 hbody
  rw [Stub.restOfLine, List.takeWhile_append_of_pos hline]
  exact beforeLast?_append_cons hrest m.parameters

theorem WellFormed.arrow?_arrow (hm : m.WellFormed) :
    ((Stub.arrow? (trimLeft (m.arrow ++ ": ..."))).map fun a => ' ' :: trim a).getD [] = m.arrow := by
  unfold arrow
  cases hr : m.result with
  | none => rfl
  | some r =>
    have hne := hm.result_ne_nil r hr
    have hcolon : ∀ c ∈ r, (c != ':') = true := fun c hc =>
      bne_iff_ne.mpr fun heq => (hm.not_mem_result r hr).1 (heq ▸ hc)
    obtain ⟨c, d, hfirst, hc, hlast, hd⟩ := exists_ends_of_trim_eq hne (hm.trim_result r hr)
    have htake : (' ' :: r ++ (": ..." : Text)).takeWhile (· != ':') = ' ' :: r := by
      rw [List.takeWhile_append_of_pos (by simpa using hcolon)]
      exact List.append_nil _
    have htrim : trim ('-' :: '>' :: ' ' :: r) = '-' :: '>' :: ' ' :: r := by
      obtain ⟨u, rfl⟩ := List.getLast?_eq_some_iff.mp hlast
      exact trim_eq_self (c := '-') (d := d) rfl (by decide) (by simp [List.getLast?_cons]) hd
    have hleft : trimLeft (' ' :: '-' :: '>' :: ' ' :: r ++ ": ...") =
        ("->" : Text) ++ (' ' :: r ++ (": ..." : Text)) := rfl
    rw [hleft, Stub.arrow?, after?_append]
    simp only [htake]
    exact congrArg (' ' :: ·) htrim

theorem WellFormed.methodDetailAt?_text (hm : m.WellFormed) : Stub.methodDetailAt? m.text = some m.shown := by
  obtain ⟨c, r, hname, hc⟩ := hm.exists_name
  let inside := m.afterSelf ++ ')' :: (m.arrow ++ (": ..." : Text))
  have hskip : ((after? "def" m.text).bind skipBlanks1?) = some (m.name ++ '(' :: ("self" ++ inside)) := by
    have htext : m.text = ("def" : Text) ++ ([' '] ++ (m.name ++ '(' :: ("self" ++ inside))) := rfl
    rw [htext, after?_append, Option.bind_some, hname, List.cons_append]
    exact skipBlanks1?_blanks_append space_ne_nil isBlank_of_mem_space hc _
  have htake : (m.name ++ '(' :: ("self" ++ inside)).takeWhile isWordChar = m.name := by
    rw [List.takeWhile_append_of_pos hm.isWordChar_of_mem_name, List.takeWhile_cons_of_neg (by decide +kernel),
      List.append_nil]
  have hdrop : (m.name ++ '(' :: ("self" ++ inside)).dropWhile isWordChar = '(' :: ("self" ++ inside) := by
    rw [List.dropWhile_append_of_pos hm.isWordChar_of_mem_name, List.dropWhile_cons_of_neg (by decide +kernel)]
  have hself : Stub.dropSelf ("self" ++ inside) = m.parameters ++ ')' :: (m.arrow ++ ": ...") :=
    hm.dropSelf_append _
  have hrest : (m.parameters ++ ')' :: (m.arrow ++ (": ..." : Text))).drop (m.parameters.length + 1) =
      m.arrow ++ (": ..." : Text) := by
    rw [← List.drop_drop, List.drop_left]
    rfl
  have hshown : m.shown = m.name ++ ['('] ++ m.parameters ++ [')'] ++ m.arrow := by simp [shown]
  rw [Stub.methodDetailAt?, hskip]
  dsimp only
  rw [htake, hdrop, trimLeft_cons (by decide)]
  split
  · rename_i inside' _ htail
    obtain rfl : "self" ++ inside = inside' := (List.cons.inj htail).2
    rw [hself, hm.beforeLast?_parameters]
    dsimp only
    rw [hrest, hm.trim_parameters]
    have harrow := hm.arrow?_arrow
    generalize Stub.arrow? (trimLeft (m.arrow ++ ": ...")) = found at harrow ⊢
    rw [hshown, ← harrow]
    cases found <;> simp
  · rename_i hno
    exact (hno c r _ hname rfl).elim

/-! The call signature. -/

theorem trim_text (m : MethodStub) : trim m.text = m.text := by
  have hlast (x : Text) : (x ++ (": ..." : Text)).getLast? = some '.' := by
    rw [List.getLast?_append]
    rfl
  have htext : m.text =
      ("def " : Text) ++ (m.name ++ ("(self" ++ (m.afterSelf ++ ')' :: m.arrow))) ++ (": ..." : Text) := by
    simp only [List.append_assoc, List.cons_append]
    rfl
  exact trim_eq_self rfl (by decide) (htext ▸ hlast _) (by decide)

theorem WellFormed.not_self_infix (hm : m.WellFormed) :
    ¬ ("(self" : Text) <:+: '(' :: (m.parameters ++ ')' :: (m.arrow ++ ": ...")) := by
  have hclose : ')' ∉ ("(self" : Text) := by decide
  have hrest : ¬ ("(self" : Text) <:+: m.arrow ++ ": ..." := fun h =>
    (List.mem_append.mp (h.subset List.mem_cons_self)).elim hm.not_mem_arrow.2.1 (by decide)
  intro h
  rcases List.infix_cons_iff.mp h with hstart | hlater
  · exact hm.not_self_parameters (isPrefix_of_append_cons (by decide) (List.cons_prefix_cons.mp hstart).2)
  · exact (isInfix_of_append_cons hclose hlater).elim hm.not_inner_self hrest

theorem WellFormed.replaceAll_comma (hm : m.WellFormed) (hne : m.parameters ≠ []) :
    Stub.replaceAll Stub.afterSelfComma? "(" 0 ('(' :: ("self" ++ (m.afterSelf ++ ')' :: (m.arrow ++ ": ...")))) =
      '(' :: (m.parameters ++ ')' :: (m.arrow ++ ": ...")) := by
  obtain ⟨c, r, hr, hc⟩ := hm.exists_parameters hne
  generalize hrest : m.parameters ++ ')' :: (m.arrow ++ (": ..." : Text)) = rest
  have hafter : ("self" : Text) ++ (m.afterSelf ++ ')' :: (m.arrow ++ (": ..." : Text))) = "self, " ++ rest := by
    rw [afterSelf, if_neg hne, ← hrest]
    rfl
  have hpassage : Stub.afterSelfComma? ('(' :: ("self, " ++ rest)) = some rest := by
    have hself : after? "(self" ('(' :: (("self, " : Text) ++ rest)) = some (',' :: ' ' :: rest) :=
      after?_append "(self" _
    have hblank : trimLeft (' ' :: rest) = rest := by
      rw [← hrest, hr]
      exact (trimLeft_blanks_append isBlank_of_mem_space _).trans (trimLeft_cons hc _)
    rw [Stub.afterSelfComma?, hself]
    exact congrArg some hblank
  have hnone : ¬ ("(self" : Text) <:+: rest := fun h => hm.not_self_infix (List.infix_cons (hrest ▸ h))
  rw [hafter, Stub.replaceAll_passage hpassage,
    Stub.replaceAll_eq_self Stub.isPrefix_of_afterSelfComma? hnone]
  rfl

theorem WellFormed.replaceAll_close (hm : m.WellFormed) (hnil : m.parameters = []) :
    Stub.replaceAll Stub.afterSelfClose? "()" 0 (Stub.replaceAll Stub.afterSelfComma? "(" 0
        ('(' :: ("self" ++ (m.afterSelf ++ ')' :: (m.arrow ++ ": ..."))))) =
      '(' :: (m.parameters ++ ')' :: (m.arrow ++ ": ...")) := by
  have hinfix := hm.not_self_infix
  rw [hnil, List.nil_append] at hinfix
  rw [afterSelf, if_pos hnil, hnil, List.nil_append]
  generalize m.arrow ++ (": ..." : Text) = rest at hinfix ⊢
  have hnone : ¬ ("(self" : Text) <:+: rest := fun h => hinfix (List.infix_cons (List.infix_cons h))
  have hlater : ¬ ("(self" : Text) <:+: "self" ++ ')' :: rest := fun h =>
    (isInfix_of_append_cons (by decide) h).elim (by decide) hnone
  have hcomma : Stub.afterSelfComma? ('(' :: ("self" ++ ')' :: rest)) = none := by
    rw [Stub.afterSelfComma?, show after? "(self" ('(' :: (("self" : Text) ++ ')' :: rest)) = some (')' :: rest) from
      after?_append "(self" _]
    rfl
  have hclose : Stub.afterSelfClose? ('(' :: ("self)" ++ rest)) = some rest := by
    rw [Stub.afterSelfClose?, show after? "(self" ('(' :: (("self)" : Text) ++ rest)) = some (')' :: rest) from
      after?_append "(self" _]
    rfl
  rw [Stub.replaceAll_cons hcomma, Stub.replaceAll_eq_self Stub.isPrefix_of_afterSelfComma? hlater]
  refine (Stub.replaceAll_passage hclose).trans ?_
  rw [Stub.replaceAll_eq_self Stub.isPrefix_of_afterSelfClose? hnone]
  rfl

theorem WellFormed.callSignature_text (hm : m.WellFormed) : Stub.callSignature m.text = m.shown := by
  have hname := hm.not_mem_name
  have hdef : after? "def " m.text =
      some (m.name ++ '(' :: ("self" ++ (m.afterSelf ++ ')' :: (m.arrow ++ ": ...")))) := after?_append "def " _
  have hreplaced : Stub.replaceAll Stub.afterSelfClose? "()" 0 (Stub.replaceAll Stub.afterSelfComma? "(" 0
      (m.name ++ '(' :: ("self" ++ (m.afterSelf ++ ')' :: (m.arrow ++ ": ..."))))) = m.shown ++ ": ..." := by
    have hshown : m.shown ++ (": ..." : Text) = m.name ++ '(' :: (m.parameters ++ ')' :: (m.arrow ++ ": ...")) := by
      simp [shown]
    rw [hshown, Stub.replaceAll_append Stub.isPrefix_of_afterSelfComma? hname,
      Stub.replaceAll_append Stub.isPrefix_of_afterSelfClose? hname]
    by_cases hnil : m.parameters = []
    · rw [hm.replaceAll_close hnil]
    · rw [hm.replaceAll_comma hnil, Stub.replaceAll_eq_self Stub.isPrefix_of_afterSelfClose? hm.not_self_infix]
  rw [Stub.callSignature, m.trim_text, hdef, Option.getD_some, hreplaced, Stub.dropEllipsis_append,
    hm.trimRight_shown]

/-! Both ways. -/

theorem shown_ne_nil (m : MethodStub) : m.shown ≠ [] := by
  rw [shown]
  exact List.append_ne_nil_of_right_ne_nil _ (List.cons_ne_nil _ _)

theorem WellFormed.detail?_text (hm : m.WellFormed) : Stub.detail? m.text "method" = some m.shown := by
  obtain ⟨r, hr⟩ : ∃ r, m.text = 'd' :: r := ⟨_, rfl⟩
  have hat := hm.methodDetailAt?_text
  rw [hr] at hat
  rw [Stub.detail?, if_pos rfl, hr, Stub.methodDetail?, hat]

theorem WellFormed.detailFor?_completions (hm : m.WellFormed) {c : AmbientClass} {label : Text}
    {before after : List Member} (hmembers : c.members = before ++ ⟨label, "method", m.text⟩ :: after)
    (hbefore : ∀ x ∈ before, x.name.isText label = false) :
    Schema.detailFor? c.completions label = some m.shown := by
  have hskip : Schema.detailFor? (before.map fun x => ⟨x.name, x.kind, x.detail?⟩) label = none := by
    rw [Schema.detailFor?, List.findSome?_eq_none_iff]
    intro i hi
    obtain ⟨x, hx, rfl⟩ := List.mem_map.mp hi
    exact if_neg (by simp [hbefore x hx])
  have hdetail : (Member.mk label "method" m.text).detail? = some m.shown := hm.detail?_text
  have hlabel : Value.isText label (.text label) = true := decide_eq_true rfl
  have hshown : (some m.shown).filter (!·.isEmpty) = some m.shown :=
    Option.filter_some_pos (by simpa using m.shown_ne_nil)
  rw [Schema.detailFor?] at hskip ⊢
  rw [AmbientClass.completions, hmembers, List.map_append, List.append_assoc, List.findSome?_append, hskip,
    Option.none_or, List.map_cons, List.cons_append, List.findSome?_cons, hdetail, if_pos hlabel, hshown]

theorem WellFormed.methodSignature?_eq (hm : m.WellFormed) {c : AmbientClass} {label : Text}
    {before after : List Member} (hmembers : c.members = before ++ ⟨label, "method", m.text⟩ :: after)
    (hbefore : ∀ x ∈ before, x.name.isText label = false) :
    Schema.methodSignature? c label = some m.shown := by
  have hskip : before.find? (fun x => x.name.isText label && x.kind.isText "method") = none := by
    rw [List.find?_eq_none]
    intro x hx
    simp [hbefore x hx]
  rw [Schema.methodSignature?, hmembers, List.find?_append, hskip, Option.none_or,
    List.find?_cons_of_pos (by simp [Value.isText]), Option.map_some, hm.callSignature_text]

/-- The two ways of showing a method stub agree, and so do the detail and the call signature under which a class
has it. -/
theorem detail?_eq_callSignature (m : MethodStub) (hm : m.WellFormed) :
    (Stub.detail? m.text "method" = some m.shown ∧ Stub.callSignature m.text = m.shown) ∧
    ∀ (c : AmbientClass) (label : Text) (before after : List Member),
      c.members = before ++ ⟨label, "method", m.text⟩ :: after → (∀ x ∈ before, x.name.isText label = false) →
      Schema.detailFor? c.completions label = some m.shown ∧ Schema.methodSignature? c label = some m.shown :=
  ⟨⟨hm.detail?_text, hm.callSignature_text⟩, fun _ _ _ _ hmembers hbefore =>
    ⟨hm.detailFor?_completions hmembers hbefore, hm.methodSignature?_eq hmembers hbefore⟩⟩

theorem detail?_eq_callSignature_defaults :
    let m : MethodStub := ⟨"find", "of: tuple = (), then: f(x) -> y: ..., *self", some "List[int]"⟩
    let c : AmbientClass := ⟨"Query", "query", [⟨"all", "property", "all: bool"⟩, ⟨"find", "method", m.text⟩], [], []⟩
    m.text = ("def find(self, of: tuple = (), then: f(x) -> y: ..., *self) -> List[int]: ..." : Text) ∧
    m.shown = ("find(of: tuple = (), then: f(x) -> y: ..., *self) -> List[int]" : Text) ∧ m.WellFormed ∧
    (Stub.detail? m.text "method" = some m.shown ∧ Stub.callSignature m.text = m.shown) ∧
    Schema.detailFor? c.completions "find" = some m.shown ∧ Schema.methodSignature? c "find" = some m.shown := by
  intro m c
  have hm : m.WellFormed := by decide +kernel
  have hagree := m.detail?_eq_callSignature hm
  exact ⟨by decide +kernel, by decide +kernel, hm, hagree.1,
    hagree.2 c "find" [⟨"all", "property", "all: bool"⟩] [] rfl (by simp [Value.isText])⟩

end MethodStub
end EditorInsight
