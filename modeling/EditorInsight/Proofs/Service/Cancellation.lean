import EditorInsight.Proofs.Service.Confinement
import EditorInsight.Proofs.Service.Stages

/-!
# Cancelled requests

A request that counts as cancelled from some checkpoint on is compared with the same request left alone.
Up to that checkpoint the two do the same. If the checkpoint is never reached, they end alike; otherwise
the cancelled one says nothing, and since a request asks for an outline last, it has not touched the
outlines yet.
-/

namespace EditorInsight

open Inquiry

namespace Act

variable {α β γ : Type}

/-- Passes no checkpoint, does the same whenever the request is to be cancelled, and keeps what `view` shows
of the session. -/
def Quiet (view : Session → γ) (act : Act α) : Prop :=
  ∀ (s : Session) (t : Turn), t.incident = none → ∃ result s' asked, view s' = view s ∧
    ∀ cancelFrom, act.run.run ⟨s, { t with cancelFrom := cancelFrom }⟩ =
      (result, ⟨s', { t with cancelFrom := cancelFrom, asked := asked }⟩)

variable {view : Session → γ}

theorem quiet_pure (a : α) : Quiet view (pure a) := by
  intro s t _
  exact ⟨.ok a, s, t.asked, rfl, fun _ => rfl⟩

theorem quiet_fail (f : ServiceFault) : Quiet view (fail f : Act α) := by
  intro s t _
  exact ⟨.error (.failed f), s, t.asked, rfl, fun _ => rfl⟩

theorem quiet_bind {act : Act α} {f : α → Act β} (hact : Quiet view act)
    (hf : ∀ a, Quiet view (f a)) : Quiet view (act >>= f) := by
  intro s t ht
  obtain ⟨result, s₁, asked₁, hview₁, hrun₁⟩ := hact s t ht
  cases result with
  | error e =>
    refine ⟨.error e, s₁, asked₁, hview₁, fun cancelFrom => ?_⟩
    rw [run_bind, hrun₁]
  | ok a =>
    obtain ⟨result, s₂, asked₂, hview₂, hrun₂⟩ := hf a s₁ { t with asked := asked₁ } ht
    refine ⟨result, s₂, asked₂, hview₂.trans hview₁, fun cancelFrom => ?_⟩
    rw [run_bind, hrun₁]
    exact hrun₂ cancelFrom

theorem quiet_session_bind {f : Session → Act α} (hf : ∀ s, Quiet view (f s)) :
    Quiet view (session >>= f) := by
  intro s t ht
  obtain ⟨result, s', asked, hview, hrun⟩ := hf s s t ht
  refine ⟨result, s', asked, hview, fun cancelFrom => ?_⟩
  rw [run_bind, run_session]
  exact hrun cancelFrom

theorem quiet_modifySession {f : Session → Session} (hf : ∀ s, view (f s) = view s) :
    Quiet view (modifySession f) := by
  intro s t _
  exact ⟨.ok (), f s, t.asked, hf s, fun _ => rfl⟩

theorem quiet_run {Q : Type} {A : Q → Type} {answer : (q : Q) → Act (A q)}
    (hanswer : ∀ q, Quiet view (answer q)) (d : Dialogue Q A α) : Quiet view (d.run answer) := by
  induction d with
  | done a => exact quiet_pure a
  | ask q next ih => exact quiet_bind (hanswer q) ih

theorem quiet_askDisk (hview : ∀ s events, view (Session.note s events) = view s) (q : FileQuestion) :
    Quiet view (askDisk q) := by
  have hasked : Quiet view (modifyTurn fun t => { t with asked := t.asked ++ [q] }) := by
    intro s t _
    exact ⟨.ok (), s, t.asked ++ [q], rfl, fun _ => rfl⟩
  have hmeet (action : FileAction) : Quiet view (meetIncident action) := by
    intro s t ht
    refine ⟨.ok (), s, t.asked, rfl, fun cancelFrom => ?_⟩
    simp only [meetIncident, run_bind, run_get, ht, run_pure]
  refine quiet_bind hasked fun _ => quiet_session_bind fun s => ?_
  split
  · exact quiet_fail _
  · refine quiet_bind (quiet_modifySession fun s => hview s _) fun _ => ?_
    exact quiet_bind (hmeet _) fun _ => quiet_pure _

theorem quiet_imports (hnote : ∀ s events, view (Session.note s events) = view s)
    (hcache : ∀ (s : Session) cache, view { s with imports := cache } = view s) : Quiet view imports := by
  refine quiet_session_bind fun s => ?_
  split
  · exact quiet_fail _
  · exact quiet_bind (quiet_modifySession fun s => hcache s _) fun _ => quiet_pure _
  · refine quiet_bind (quiet_run (quiet_askDisk hnote) _) fun names => ?_
    exact quiet_bind (quiet_modifySession fun s => hcache s _) fun _ => quiet_pure _

/-! What a request does not change. -/

theorem run_checkpoint (s : Session) (t : Turn) : checkpoint.run.run ⟨s, t⟩ =
    (if t.cancelFrom.any (· ≤ t.checkpoints) then .error .cancelled else .ok (),
      ⟨s, { t with checkpoints := t.checkpoints + 1 }⟩) := by
  simp only [checkpoint, run_bind, run_get, run_modifyTurn]
  split <;> rfl

/-- Nothing is to happen to the request, and `view` shows `x` of its session. -/
def Shows (view : Session → γ) (x : γ) (r : Running) : Prop :=
  r.turn.incident = none ∧ view r.session = x

theorem maintains_of_quiet {act : Act α} (hact : Quiet view act) (x : γ) : Maintains (Shows view x) act := by
  rintro ⟨s, t⟩ ⟨hincident, hx⟩
  obtain ⟨result, s', asked, hview, hrun⟩ := hact s t hincident
  have hrun : act.run.run ⟨s, t⟩ = _ := hrun t.cancelFrom
  rw [hrun]
  exact ⟨hincident, hview.trans hx⟩

theorem maintains_checkpoint_shows (view : Session → γ) (x : γ) : Maintains (Shows view x) checkpoint := by
  rintro ⟨s, t⟩ hr
  rw [run_checkpoint]
  exact hr

theorem maintains_outline_shows (hnote : ∀ s events, view (Session.note s events) = view s)
    (hcache : ∀ (s : Session) cache, view { s with outlines := cache } = view s) (x : γ) (path : Text) :
    Maintains (Shows view x) (outline path) := by
  refine maintains_bind (maintains_checkpoint_shows view x) fun _ => maintains_session_bind fun r _ => ?_
  split
  · exact maintains_of_quiet (quiet_fail _) x
  · split
    · exact maintains_of_quiet (quiet_fail _) x
    · apply maintains_of_quiet
      exact quiet_bind (quiet_modifySession fun s => hcache s _) fun _ => quiet_pure _
    · refine maintains_bind (maintains_of_quiet (quiet_askDisk hnote _) x) fun text =>
        maintains_bind (maintains_checkpoint_shows view x) fun _ => ?_
      apply maintains_of_quiet
      exact quiet_bind (quiet_modifySession fun s => hcache s _) fun _ => quiet_pure _

theorem maintains_run_imports (imports : SlotCache) {stage : Stage} (hstage : stage ≠ .start)
    {d : Inquiry α} (hd : Orderly (fun _ _ => True) stage d) :
    Maintains (Shows Session.imports imports) (d.run answer) := by
  induction d generalizing stage with
  | done a => exact maintains_pure a
  | ask q next ih =>
    obtain ⟨hpermits, hnext⟩ := hd
    cases q with
    | imports =>
      cases stage with
      | start => exact absurd rfl hstage
      | listed => exact hpermits.elim
      | outlined => exact hpermits.elim
    | checkpoint =>
      exact maintains_bind (maintains_checkpoint_shows _ imports) fun a => ih a hstage (hnext a)
    | outline path =>
      refine maintains_bind (maintains_outline_shows (fun _ _ => rfl) (fun _ _ => rfl) imports path) fun a => ?_
      exact ih a (by simp [Stage.after]) (hnext a)
    | file q =>
      exact maintains_bind (maintains_of_quiet (quiet_askDisk (fun _ _ => rfl) q) imports)
        fun a => ih a hstage (hnext a)

/-! Two runs side by side. -/

/-- How an action on the session `s` ends when it counts as cancelled from checkpoint `n` on, given second,
against how it ends otherwise, given first. -/
inductive Abandons (n : Nat) (s : Session) :
    Except Interruption α × Running → Except Interruption α × Running → Prop
  | unnoticed (result : Except Interruption α) (s' : Session) (t : Turn) (h : t.checkpoints ≤ n) :
    Abandons n s (result, ⟨s', { t with cancelFrom := none }⟩)
      (result, ⟨s', { t with cancelFrom := some n }⟩)
  | noticed (result : Except Interruption α) (r r' : Running) (hchecked : n < r'.turn.checkpoints)
    (houtlines : r'.session.outlines = s.outlines)
    (himports : r'.session.imports = s.imports ∨ r'.session.imports = r.session.imports) :
    Abandons n s (result, r) (.error .cancelled, r')

/-- The two runs of an action, from the same session and turn. -/
def AbandonedAt (n : Nat) (act : Act α) (s : Session) (t : Turn) : Prop :=
  Abandons n s (act.run.run ⟨s, { t with cancelFrom := none }⟩)
    (act.run.run ⟨s, { t with cancelFrom := some n }⟩)

variable {n : Nat} {s : Session} {t : Turn}

theorem Abandons.of_session {s' : Session} {x y : Except Interruption α × Running}
    (h : Abandons n s' x y) (houtlines : s'.outlines = s.outlines)
    (himports : s'.imports = s.imports ∨ x.2.session.imports = s'.imports) : Abandons n s x y := by
  cases h with
  | unnoticed result s'' t hn => exact .unnoticed result s'' t hn
  | noticed result r r' hchecked houtlines' himports' =>
    refine .noticed result r r' hchecked (houtlines'.trans houtlines) ?_
    rcases himports' with hbefore | hafter
    · rcases himports with hsame | hkept
      · exact .inl (hbefore.trans hsame)
      · exact .inr (hbefore.trans hkept.symm)
    · exact .inr hafter

theorem abandonedAt_of_quiet {act : Act α} (hact : Quiet (fun _ => ()) act) (ht : t.incident = none)
    (hn : t.checkpoints ≤ n) : AbandonedAt n act s t := by
  obtain ⟨result, s', asked, -, hrun⟩ := hact s t ht
  unfold AbandonedAt
  rw [hrun, hrun]
  exact .unnoticed result s' { t with asked := asked } hn

/-- After a quiet action the two runs go on side by side. Either it has kept the names, or what follows
does. -/
theorem abandonedAt_quiet_bind {act : Act α} {f : α → Act β} (hact : Quiet view act)
    (ht : t.incident = none) (hn : t.checkpoints ≤ n)
    (houtlines : ∀ s', view s' = view s → s'.outlines = s.outlines)
    (hf : ∀ a s' asked, AbandonedAt n (f a) s' { t with asked := asked })
    (himports : ∀ a s', view s' = view s →
      s'.imports = s.imports ∨ Maintains (Shows Session.imports s'.imports) (f a)) :
    AbandonedAt n (act >>= f) s t := by
  obtain ⟨result, s', asked, hview, hrun⟩ := hact s t ht
  unfold AbandonedAt
  rw [run_bind, run_bind, hrun, hrun]
  cases result with
  | error e => exact .unnoticed (.error e) s' { t with asked := asked } hn
  | ok a =>
    refine (hf a s' asked).of_session (houtlines s' hview) ((himports a s' hview).imp id fun hkeeps => ?_)
    exact (hkeeps _ ⟨ht, rfl⟩).2

theorem abandonedAt_session_bind {f : Session → Act α} (h : AbandonedAt n (f s) s t) :
    AbandonedAt n (session >>= f) s t := by
  unfold AbandonedAt
  rw [run_bind, run_bind, run_session, run_session]
  exact h

theorem abandonedAt_checkpoint_bind {f : Unit → Act β} (hn : t.checkpoints ≤ n)
    (hf : t.checkpoints < n → AbandonedAt n (f ()) s { t with checkpoints := t.checkpoints + 1 }) :
    AbandonedAt n (checkpoint >>= f) s t := by
  unfold AbandonedAt
  rw [run_bind, run_bind, run_checkpoint, run_checkpoint]
  rcases Nat.lt_or_eq_of_le hn with hlt | heq
  · have hpass : ¬ n ≤ t.checkpoints := by omega
    simp only [Option.any_none, Option.any_some, hpass, decide_false, Bool.false_eq_true, if_false]
    exact hf hlt
  · have hstop : n ≤ t.checkpoints := by omega
    simp only [Option.any_none, Option.any_some, hstop, decide_true, Bool.false_eq_true, if_false,
      if_true]
    refine .noticed _ _ _ ?_ rfl (.inl rfl)
    change n < t.checkpoints + 1
    omega

theorem abandonedAt_bind_inert {act : Act α} {f : α → Act β} (h : AbandonedAt n act s t)
    (hf : ∀ a, ∃ result, ∀ r, (f a).run.run r = (result, r)) : AbandonedAt n (act >>= f) s t := by
  unfold AbandonedAt at h ⊢
  rw [run_bind, run_bind]
  generalize act.run.run ⟨s, { t with cancelFrom := none }⟩ = x at h ⊢
  generalize act.run.run ⟨s, { t with cancelFrom := some n }⟩ = y at h ⊢
  cases h with
  | unnoticed result s' t hn =>
    cases result with
    | error e => exact .unnoticed (.error e) s' t hn
    | ok a =>
      obtain ⟨result, hresult⟩ := hf a
      dsimp only
      rw [hresult, hresult]
      exact .unnoticed result s' t hn
  | noticed result r r' hchecked houtlines himports =>
    cases result with
    | error e => exact .noticed (.error e) r r' hchecked houtlines himports
    | ok a =>
      obtain ⟨result, hresult⟩ := hf a
      dsimp only
      rw [hresult]
      exact .noticed result r r' hchecked houtlines himports

theorem abandonedAt_askDisk_bind {q : FileQuestion} {f : q.Answer → Act α} (ht : t.incident = none)
    (hn : t.checkpoints ≤ n) (hf : ∀ a s' asked, AbandonedAt n (f a) s' { t with asked := asked }) :
    AbandonedAt n (askDisk q >>= f) s t := by
  have hquiet : Quiet (fun s => (s.outlines, s.imports)) (askDisk q) := quiet_askDisk (fun _ _ => rfl) q
  refine abandonedAt_quiet_bind hquiet ht hn (fun s' hview => ?_) hf fun a s' hview => ?_
  · exact congrArg Prod.fst hview
  · exact .inl (congrArg Prod.snd hview)

/-- An outline is kept only after the last checkpoint. -/
theorem abandonedAt_outline (path : Text) (ht : t.incident = none) (hn : t.checkpoints ≤ n) :
    AbandonedAt n (outline path) s t := by
  apply abandonedAt_checkpoint_bind hn
  intro hpassed
  have ht₁ : ({ t with checkpoints := t.checkpoints + 1 } : Turn).incident = none := ht
  have hn₁ : ({ t with checkpoints := t.checkpoints + 1 } : Turn).checkpoints ≤ n := hpassed
  apply abandonedAt_session_bind
  cases s.moduleKey path with
  | error f => exact abandonedAt_of_quiet (quiet_fail _) ht₁ hn₁
  | ok key =>
    dsimp only
    cases s.outlines.lookup key s.clock with
    | error f => exact abandonedAt_of_quiet (quiet_fail _) ht₁ hn₁
    | ok found =>
      cases found with
      | hit o cache =>
        refine abandonedAt_of_quiet ?_ ht₁ hn₁
        exact quiet_bind (quiet_modifySession fun _ => rfl) fun _ => quiet_pure o
      | load ticket =>
        apply abandonedAt_askDisk_bind ht₁ hn₁
        intro text s' asked
        refine abandonedAt_checkpoint_bind hpassed fun hpassed₂ => ?_
        refine abandonedAt_of_quiet ?_ ht hpassed₂
        exact quiet_bind (quiet_modifySession fun _ => rfl) fun _ => quiet_pure _

/-- An orderly inquiry that is cancelled leaves the outlines alone. -/
theorem abandonedAt_run {stage : Stage} {d : Inquiry α} (hd : Orderly (fun _ _ => True) stage d)
    (s : Session) {t : Turn} (ht : t.incident = none) (hn : t.checkpoints ≤ n) :
    AbandonedAt n (d.run answer) s t := by
  induction d generalizing stage s t with
  | done a => exact abandonedAt_of_quiet (quiet_pure a) ht hn
  | ask q next ih =>
    obtain ⟨hpermits, hnext⟩ := hd
    cases q with
    | checkpoint =>
      apply abandonedAt_checkpoint_bind hn
      intro hpassed
      exact ih () (hnext ()) s ht hpassed
    | imports =>
      refine abandonedAt_quiet_bind (quiet_imports (fun _ _ => rfl) fun _ _ => rfl) ht hn (fun s' hview => hview) ?_ ?_
      · intro names s' asked
        exact ih names (hnext names) s' ht hn
      · -- The names are not asked for again, so they end as they are now.
        intro names s' hview
        exact .inr (maintains_run_imports s'.imports (by simp [Stage.after]) (hnext names))
    | outline path =>
      apply abandonedAt_bind_inert (abandonedAt_outline path ht hn)
      intro o
      have hlast := hnext o
      cases hdone : next o with
      | done a => exact ⟨.ok a, fun _ => rfl⟩
      | ask q' next' =>
        rw [hdone] at hlast
        exact hlast.1.elim
    | file q =>
      apply abandonedAt_askDisk_bind ht hn
      intro a s' asked
      exact ih a (hnext a) s' ht hn

theorem abandonedAt_inquire (k : RequestKind) (d : Document) (p : CursorPosition) (s : Session)
    {t : Turn} (ht : t.incident = none) (hn : t.checkpoints ≤ n) :
    AbandonedAt n (inquire k d p) s t := by
  apply abandonedAt_checkpoint_bind hn
  intro hpassed
  apply abandonedAt_session_bind
  apply abandonedAt_bind_inert
  · exact abandonedAt_run (Workspace.orderly_inquire d p k) s ht hpassed
  · intro answered
    cases answered with
    | ok result => exact ⟨.ok (some result), fun _ => rfl⟩
    | error f => exact ⟨.error (.failed (.request f)), fun _ => rfl⟩

end Act

/-- A request that counts as cancelled from checkpoint `n` on either never reaches that checkpoint, and ends
with the result and the caches of the request left alone, or says nothing and leaves the outlines as they
were. The cached names end as they were or as the request left alone leaves them. -/
theorem Session.cancellation_all_or_nothing (s : Session) (k : RequestKind) (d : Document)
    (p : CursorPosition) (n : Nat) :
    let alone := (Act.request k d p).run.run ⟨s, {}⟩
    let cancelled := (Act.request k d p).run.run ⟨s, { cancelFrom := some n }⟩
    (n < cancelled.2.turn.checkpoints →
      cancelled.1 = .ok k.nothing ∧ cancelled.2.session.outlines = s.outlines) ∧
    (¬ n < cancelled.2.turn.checkpoints →
      cancelled.1 = alone.1 ∧ cancelled.2.session.outlines = alone.2.session.outlines ∧
        cancelled.2.session.imports = alone.2.session.imports) ∧
    (cancelled.2.session.imports = s.imports ∨
      cancelled.2.session.imports = alone.2.session.imports) := by
  intro alone cancelled
  have hinquire : Act.AbandonedAt n (Act.inquire k d p) s {} :=
    Act.abandonedAt_inquire k d p s rfl (Nat.zero_le n)
  unfold Act.AbandonedAt at hinquire
  have halone : alone = Act.conclude k d _ := Act.run_request k d p _
  have hcancelled : cancelled = Act.conclude k d _ := Act.run_request k d p _
  rw [halone, hcancelled, Act.conclude_snd, Act.conclude_snd]
  generalize (Act.inquire k d p).run.run ⟨s, _⟩ = x at hinquire ⊢
  generalize (Act.inquire k d p).run.run ⟨s, _⟩ = y at hinquire ⊢
  cases hinquire with
  | unnoticed result s' t hn =>
    have hresult : (Act.conclude k d (result, ⟨s', { t with cancelFrom := some n }⟩)).1 =
        (Act.conclude k d (result, ⟨s', { t with cancelFrom := none }⟩)).1 := by
      rcases result with (- | f) | (- | result) <;> rfl
    refine ⟨fun hnoticed => ?_, fun _ => ⟨hresult, rfl, rfl⟩, .inr rfl⟩
    have hpassed : n < t.checkpoints := hnoticed
    omega
  | noticed result r r' hchecked houtlines himports =>
    exact ⟨fun _ => ⟨rfl, houtlines⟩, fun hunnoticed => absurd hchecked hunnoticed, himports⟩

end EditorInsight
