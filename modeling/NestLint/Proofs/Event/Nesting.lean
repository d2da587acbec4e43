import NestLint.Proofs.Event.Subscriptions

/-!
# Emissions inside of emissions

A handler that is called may emit events itself, also the one that it hears. Who is called is settled at the start of
an emission, so that several emissions of an event may have one and the same listener ahead. Each of them calls it: a
subscription for a single time ends at the first call, but it is not taken out of the emissions that are under way.

The emissions are those of `EventEmitter.emit`, and a subscription for a single time is one by `once`.

* `Step`, `Steps`: what handlers can do while emissions are under way, nested to any depth and in any order;
* `isRun_cascade`: the emissions of handlers that react with events are such a run;
* `Steps.spent_calls`: how often a listener that is gone will still be called;
* `count_calls`: how often a subscription for a single time is called altogether.
-/

namespace NestLint.Emitter

variable {ε α : Type}

/-! ## Emissions under way -/

/-- An emission that is under way, with those who are still to be called. -/
structure Round (ε α : Type) where
  event : ε
  ahead : List (Listener α)

/-- An emitter, and the emissions that are under way. The first one was emitted last. -/
structure Stage (ε α : Type) where
  emitter : Emitter ε α := {}
  rounds : List (Round ε α) := []

/-! ## Distinct listeners -/

/-- No listener comes twice, and all that hear only once have numbers that have been issued. -/
structure Proper (issued : Nat) (listeners : List (Listener α)) : Prop where
  nodup : listeners.Nodup
  numbered : ∀ {number handler}, Listener.once number handler ∈ listeners → number < issued

namespace Proper

variable {issued : Nat} {listeners others : List (Listener α)}

theorem nil (issued : Nat) : Proper issued ([] : List (Listener α)) := ⟨List.nodup_nil, nofun⟩

theorem sublist (proper : Proper issued listeners) (h : others.Sublist listeners) : Proper issued others :=
  ⟨proper.nodup.sublist h, fun hmem => proper.numbered (h.subset hmem)⟩

theorem perm (proper : Proper issued listeners) (h : others.Perm listeners) : Proper issued others :=
  ⟨h.nodup_iff.2 proper.nodup, fun hmem => proper.numbered (h.mem_iff.1 hmem)⟩

theorem mono (proper : Proper issued listeners) {more : Nat} (h : issued ≤ more) : Proper more listeners :=
  ⟨proper.nodup, fun hmem => Nat.lt_of_lt_of_le (proper.numbered hmem) h⟩

end Proper

variable [DecidableEq ε]

/-- Nobody listens twice, or is to be called twice by one emission. -/
structure Stage.Sound (s : Stage ε α) : Prop where
  listening : ∀ event, Proper s.emitter.issued (s.emitter.listening event)
  ahead : ∀ round ∈ s.rounds, Proper s.emitter.issued round.ahead

theorem proper_change {m : Emitter ε α} {issued : Nat} {f : List (Listener α) → List (Listener α)} {event : ε}
    (hm : ∀ event, Proper issued (m.listening event)) (hf : Proper issued (f (m.listening event))) (other : ε) :
    Proper issued ((m.change event f).listening other) := by
  rw [listening_change]
  split
  · exact hf
  · exact hm other

theorem sound_start : Stage.Sound ({} : Stage ε α) := ⟨fun _ => Proper.nil _, nofun⟩

variable [DecidableEq α]

theorem Proper.withListener {issued : Nat} {listeners : List (Listener α)} (proper : Proper issued listeners)
    (l : Listener α) (hl : ∀ {number handler}, l = .once number handler → number < issued) :
    Proper issued (withListener l listeners) := by
  refine ⟨?_, fun hmem => ?_⟩
  · rw [Emitter.withListener]
    split
    · exact proper.nodup
    · rename_i hnot
      exact List.nodup_append.2 ⟨proper.nodup, by simp, fun a ha b hb hab => hnot (by simp_all)⟩
  · obtain hnew | hold := mem_withListener.1 hmem
    · exact hl hnew.symm
    · exact proper.numbered hold

/-! ## Steps -/

/-- What happens next, and who is called by it. Handlers subscribe and unsubscribe others and emit events. The emission
that was emitted last calls the next listener, or ends. It is abandoned if a handler fails. -/
inductive Step (mayFail : Bool) : Stage ε α → List (ε × Listener α) → Stage ε α → Prop
  | act {m : Emitter ε α} {rounds : List (Round ε α)} {deed : Deed ε α}
      (hdeed : ∀ event order, deed ≠ .emit event order) :
      Step mayFail ⟨m, rounds⟩ [] ⟨perform (fun _ => false) m deed, rounds⟩
  | emit {m : Emitter ε α} {rounds : List (Round ε α)} {event : ε} {order : List (Listener α)}
      (horder : order.Perm (m.listening event)) :
      Step mayFail ⟨m, rounds⟩ [] ⟨m.change event id, ⟨event, order⟩ :: rounds⟩
  | call {m : Emitter ε α} {rounds : List (Round ε α)} {event : ε} {l : Listener α} {ahead : List (Listener α)} :
      Step mayFail ⟨m, ⟨event, l :: ahead⟩ :: rounds⟩ [(event, l)] ⟨m.release event l, ⟨event, ahead⟩ :: rounds⟩
  | finish {m : Emitter ε α} {rounds : List (Round ε α)} {event : ε} :
      Step mayFail ⟨m, ⟨event, []⟩ :: rounds⟩ [] ⟨m, rounds⟩
  | abandon {m : Emitter ε α} {rounds : List (Round ε α)} {round : Round ε α} (hfails : mayFail = true) :
      Step mayFail ⟨m, round :: rounds⟩ [] ⟨m, rounds⟩

/-- Any number of steps, and who is called by them, in order. -/
inductive Steps (mayFail : Bool) : Stage ε α → List (ε × Listener α) → Stage ε α → Prop
  | refl (s : Stage ε α) : Steps mayFail s [] s
  | head {s s' s'' : Stage ε α} {first rest : List (ε × Listener α)} (step : Step mayFail s first s')
      (steps : Steps mayFail s' rest s'') : Steps mayFail s (first ++ rest) s''

variable {mayFail : Bool} {s s' s'' : Stage ε α} {trace more : List (ε × Listener α)}

theorem Steps.trans (steps : Steps mayFail s trace s') (others : Steps mayFail s' more s'') :
    Steps mayFail s (trace ++ more) s'' := by
  induction steps with
  | refl => exact others
  | head step _ ih =>
    rw [List.append_assoc]
    exact .head step (ih others)

theorem Step.steps (step : Step mayFail s trace s') : Steps mayFail s trace s' := by
  have hsteps := Steps.head step (.refl s')
  rwa [List.append_nil] at hsteps

/-! ## Reactions -/

/-- Something is done with an emitter that is a run, whatever is under way, and in which handlers are called besides
those of `first`. -/
def IsRun (first : List α) (f : Emitter ε α → Emitter ε α × Calls α) : Prop :=
  ∀ m rounds, ∃ trace, Steps false ⟨m, rounds⟩ trace ⟨(f m).1, rounds⟩ ∧
    (f m).2 = ⟨first ++ trace.map fun entry => entry.2.handler, false⟩

section

variable {call : Emitter ε α → α → Emitter ε α × Calls α}

/-- Listeners are called one after the other, and what each of them does is a run by itself. -/
theorem steps_serve (hcall : ∀ handler, IsRun [handler] fun m => call m handler) (event : ε)
    (order : List (Listener α)) (m : Emitter ε α) (rounds : List (Round ε α)) :
    ∃ trace, Steps false ⟨m, ⟨event, order⟩ :: rounds⟩ trace ⟨(serve call event order m).1, rounds⟩ ∧
      (serve call event order m).2 = ⟨trace.map fun entry => entry.2.handler, false⟩ := by
  induction order generalizing m with
  | nil => exact ⟨[], Step.finish.steps, rfl⟩
  | cons l rest ih =>
    obtain ⟨inner, hinner, hcalls⟩ := hcall l.handler (m.release event l) (⟨event, rest⟩ :: rounds)
    obtain ⟨outer, houter, hmore⟩ := ih (call (m.release event l) l.handler).1
    refine ⟨[(event, l)] ++ (inner ++ outer), .head .call (hinner.trans ?_), ?_⟩
    · rw [serve]
      simp only [hcalls, Bool.false_eq_true, if_false]
      exact houter
    · rw [serve]
      simp [hcalls, hmore]

theorem isRun_emitWith (hcall : ∀ handler, IsRun [handler] fun m => call m handler) (event : ε) :
    IsRun [] fun m => emitWith call m event := by
  intro m rounds
  obtain ⟨trace, hserve, hcalls⟩ := steps_serve hcall event (m.listening event) (m.change event id) rounds
  exact ⟨trace, .head (.emit (List.Perm.refl _)) hserve, hcalls⟩

theorem isRun_emitEach {emit : Emitter ε α → ε → Emitter ε α × Calls α}
    (hemit : ∀ event, IsRun [] fun m => emit m event) (events : List ε) : IsRun [] (emitEach emit events) := by
  induction events with
  | nil => exact fun m rounds => ⟨[], .refl _, rfl⟩
  | cons event rest ih =>
    intro m rounds
    obtain ⟨first, hfirst, hcalls⟩ := hemit event m rounds
    obtain ⟨others, hothers, hmore⟩ := ih (emit m event).1 rounds
    refine ⟨first ++ others, hfirst.trans hothers, ?_⟩
    rw [emitEach]
    simp [hcalls, hmore]

end

/-- Whatever events handlers react with, and however deep, their emissions are a run. -/
theorem isRun_cascade (reaction : α → List ε) (depth : Nat) (event : ε) :
    IsRun [] fun m => cascade reaction depth m event := by
  induction depth generalizing event with
  | zero => exact isRun_emitWith (fun handler m rounds => ⟨[], .refl _, rfl⟩) event
  | succ depth ih =>
    refine isRun_emitWith (fun handler m rounds => ?_) event
    obtain ⟨trace, hsteps, hcalls⟩ := isRun_emitEach ih (reaction handler) m rounds
    refine ⟨trace, hsteps, ?_⟩
    simp [hcalls]

/-! ## What steps keep -/

theorem proper_release (sound : s.Sound) (event : ε) (l : Listener α) (other : ε) :
    Proper s.emitter.issued ((s.emitter.release event l).listening other) := by
  cases l with
  | always handler => exact sound.listening other
  | once number handler =>
    exact proper_change sound.listening ((sound.listening event).sublist List.filter_sublist) other

theorem proper_perform (sound : s.Sound) {deed : Deed ε α} (hdeed : ∀ event order, deed ≠ .emit event order)
    (other : ε) : Proper (perform (fun _ => false) s.emitter deed).issued
      ((perform (fun _ => false) s.emitter deed).listening other) := by
  cases deed with
  | on event handler =>
    exact proper_change sound.listening ((sound.listening event).withListener (.always handler) nofun) other
  | once event handler =>
    have hlistening (event : ε) : Proper (s.emitter.issued + 1) (s.emitter.listening event) :=
      (sound.listening event).mono (Nat.le_succ _)
    refine proper_change hlistening ((hlistening event).withListener _ fun hl => ?_) other
    cases hl
    exact Nat.lt_succ_self _
  | remove event handler =>
    exact proper_change sound.listening ((sound.listening event).sublist List.filter_sublist) other
  | clear => exact Proper.nil _
  | emit event order => exact absurd rfl (hdeed event order)

theorem Step.sound (step : Step mayFail s trace s') (sound : s.Sound) : s'.Sound := by
  cases step with
  | act hdeed =>
    refine ⟨proper_perform sound hdeed, fun round hround => (sound.ahead round hround).mono ?_⟩
    rw [issued_perform]
    exact Nat.le_add_right ..
  | emit horder =>
    refine ⟨proper_change sound.listening (sound.listening _), fun round hround => ?_⟩
    obtain rfl | hround := List.mem_cons.1 hround
    · exact (sound.listening _).perm horder
    · exact sound.ahead round hround
  | call =>
    obtain ⟨hcalling, hrounds⟩ := List.forall_mem_cons.1 sound.ahead
    refine ⟨fun other => ?_, ?_⟩
    all_goals rw [issued_release]
    · exact proper_release sound _ _ other
    · exact List.forall_mem_cons.2 ⟨hcalling.sublist (List.sublist_cons_self ..), hrounds⟩
  | finish => exact ⟨sound.listening, (List.forall_mem_cons.1 sound.ahead).2⟩
  | abandon => exact ⟨sound.listening, (List.forall_mem_cons.1 sound.ahead).2⟩

theorem Steps.sound (steps : Steps mayFail s trace s') (sound : s.Sound) : s'.Sound := by
  induction steps with
  | refl => exact sound
  | head step _ ih => exact ih (step.sound sound)

/-! ## Listeners that are gone -/

/-- A subscription for a single time that has ended: nobody will listen by it any more. -/
structure Stage.Spent (s : Stage ε α) (event : ε) (number : Nat) (handler : α) : Prop where
  gone : Listener.once number handler ∉ s.emitter.listening event
  old : number < s.emitter.issued

/-- How many emissions of an event are under way. -/
def Stage.underWay (s : Stage ε α) (event : ε) : Nat := s.rounds.countP fun round => round.event = event

/-- How many emissions of an event are under way that have yet to call a listener. -/
def Stage.waiting (s : Stage ε α) (event : ε) (l : Listener α) : Nat :=
  s.rounds.countP fun round => round.event == event && round.ahead.contains l

theorem waiting_le_underWay (s : Stage ε α) (event : ε) (l : Listener α) : s.waiting event l ≤ s.underWay event :=
  List.countP_mono_left fun round _ h => by simp_all

variable {number : Nat} {handler : α}

theorem Step.spent (step : Step mayFail s trace s') (spent : s.Spent event number handler) :
    s'.Spent event number handler := by
  cases step with
  | act hdeed =>
    refine ⟨fun hmem => ?_, ?_⟩
    · obtain hgives | ⟨hold, -⟩ := mem_listening_perform.1 hmem
      · exact Nat.lt_irrefl _ ((gives_once_iff.1 hgives).2 ▸ spent.old)
      · exact spent.gone hold
    · rw [issued_perform]
      exact Nat.lt_of_lt_of_le spent.old (Nat.le_add_right ..)
  | emit horder =>
    refine ⟨fun hmem => spent.gone ?_, spent.old⟩
    rw [listening_change] at hmem
    split at hmem
    · rename_i hevent
      rwa [← hevent]
    · exact hmem
  | call =>
    refine ⟨fun hmem => spent.gone (mem_listening_release.1 hmem).1, ?_⟩
    rw [issued_release]
    exact spent.old
  | finish => exact ⟨spent.gone, spent.old⟩
  | abandon => exact ⟨spent.gone, spent.old⟩

theorem waiting_cons (m : Emitter ε α) (round : Round ε α) (rounds : List (Round ε α)) (event : ε) (l : Listener α) :
    (Stage.mk m (round :: rounds)).waiting event l =
      (Stage.mk m rounds).waiting event l + if round.event = event ∧ l ∈ round.ahead then 1 else 0 := by
  rw [Stage.waiting, List.countP_cons]
  simp [Stage.waiting]

/-- When a listener is gone, each call of it is one that an emission still had ahead. None of them is lost unless a
handler fails. -/
theorem Step.waiting (step : Step mayFail s trace s') (sound : s.Sound) (spent : s.Spent event number handler) :
    ∃ lost, trace.count (event, .once number handler) + s'.waiting event (.once number handler) + lost =
        s.waiting event (.once number handler) ∧ (mayFail = false → lost = 0) := by
  cases step with
  | act hdeed => exact ⟨0, by simp [Stage.waiting], fun _ => rfl⟩
  | @emit m rounds other order horder =>
    -- Whoever is gone is not among those that a new emission has ahead.
    have hnot : ¬ (other = event ∧ Listener.once number handler ∈ order) := by
      rintro ⟨rfl, hmem⟩
      exact spent.gone (horder.mem_iff.1 hmem)
    refine ⟨0, ?_, fun _ => rfl⟩
    rw [waiting_cons, if_neg hnot]
    simp [Stage.waiting]
  | @call m rounds other l ahead =>
    refine ⟨0, ?_, fun _ => rfl⟩
    rw [waiting_cons, waiting_cons]
    by_cases hl : other = event ∧ l = .once number handler
    -- One emission does not call a listener twice, so it is not ahead again.
    · obtain ⟨rfl, rfl⟩ := hl
      have hnot : Listener.once number handler ∉ ahead :=
        (List.nodup_cons.1 (sound.ahead _ List.mem_cons_self).nodup).1
      simp [hnot, Stage.waiting, Nat.add_comm]
    · have hcount : [(other, l)].count (event, .once number handler) = 0 := by
        rw [List.count_eq_zero, List.mem_singleton, Prod.mk.injEq]
        exact fun heq => hl ⟨heq.1.symm, heq.2.symm⟩
      have hiff : (other = event ∧ Listener.once number handler ∈ l :: ahead) ↔
          (other = event ∧ Listener.once number handler ∈ ahead) := by
        refine and_congr_right fun hevent => ?_
        rw [List.mem_cons, or_iff_right fun heq => hl ⟨hevent, heq.symm⟩]
      rw [hcount, if_congr hiff rfl rfl]
      simp [Stage.waiting]
  | finish => exact ⟨0, by simp [Stage.waiting], fun _ => rfl⟩
  | @abandon m rounds round hfails =>
    refine ⟨if round.event = event ∧ Listener.once number handler ∈ round.ahead then 1 else 0, ?_, fun hnever => ?_⟩
    · rw [waiting_cons, List.count_nil, Nat.zero_add]
    · rw [hfails] at hnever
      cases hnever

theorem Steps.spent_calls (steps : Steps mayFail s trace s') (sound : s.Sound) (spent : s.Spent event number handler) :
    ∃ lost, trace.count (event, .once number handler) + s'.waiting event (.once number handler) + lost =
        s.waiting event (.once number handler) ∧ (mayFail = false → lost = 0) := by
  induction steps with
  | refl s => exact ⟨0, by simp, fun _ => rfl⟩
  | head step _ ih =>
    obtain ⟨lost, hstep, hlost⟩ := step.waiting sound spent
    obtain ⟨more, hsteps, hmore⟩ := ih (step.sound sound) (step.spent spent)
    refine ⟨lost + more, ?_, fun hnever => by rw [hlost hnever, hmore hnever]⟩
    rw [List.count_append]
    omega

/-! ## All calls -/

/-- The first call of a listener that hears only once is the end of its subscription. -/
theorem Step.first_call (call : Step mayFail s [(event, .once number handler)] s') (sound : s.Sound) :
    s'.Spent event number handler ∧
      s'.waiting event (.once number handler) + 1 = s.waiting event (.once number handler) := by
  obtain ⟨m, rounds, ahead, rfl, rfl⟩ : ∃ m rounds ahead,
      s = ⟨m, ⟨event, .once number handler :: ahead⟩ :: rounds⟩ ∧
        s' = ⟨m.release event (.once number handler), ⟨event, ahead⟩ :: rounds⟩ := by
    cases call
    exact ⟨_, _, _, rfl, rfl⟩
  have hcalling := sound.ahead _ List.mem_cons_self
  have hnot : Listener.once number handler ∉ ahead := (List.nodup_cons.1 hcalling.nodup).1
  refine ⟨⟨fun hmem => ?_, ?_⟩, ?_⟩
  · exact (mem_listening_release.1 hmem).2 ⟨rfl, rfl, rfl⟩
  · rw [issued_release]
    exact hcalling.numbered List.mem_cons_self
  · rw [waiting_cons, waiting_cons]
    simp [hnot, Stage.waiting]

/-- A listener that hears only once is called as often as emissions that are under way at its first call have it ahead,
or fewer times if handlers fail. So it is called only once if the event is not being emitted several times over. -/
theorem count_calls {before after : List (ε × Listener α)} {s₁ s₂ : Stage ε α}
    (hbefore : Steps mayFail {} before s₁) (hfirst : (event, Listener.once number handler) ∉ before)
    (hcall : Step mayFail s₁ [(event, .once number handler)] s₂) (hafter : Steps mayFail s₂ after s) :
    (before ++ (event, .once number handler) :: after).count (event, .once number handler) ≤
        s₁.waiting event (.once number handler) ∧
      (mayFail = false → s.rounds = [] →
        (before ++ (event, .once number handler) :: after).count (event, .once number handler) =
          s₁.waiting event (.once number handler)) ∧
      (s₁.underWay event = 1 →
        (before ++ (event, .once number handler) :: after).count (event, .once number handler) = 1) := by
  have sound := hbefore.sound sound_start
  obtain ⟨spent, hwaiting⟩ := hcall.first_call sound
  obtain ⟨lost, hcount, hlost⟩ := hafter.spent_calls (hcall.sound sound) spent
  have hall : (before ++ (event, .once number handler) :: after).count (event, .once number handler) =
      after.count (event, .once number handler) + 1 := by
    rw [List.count_append, List.count_eq_zero.2 hfirst, List.count_cons_self, Nat.zero_add]
  rw [hall]
  refine ⟨by omega, fun hnever hend => ?_, fun honly => ?_⟩
  · have hnone : s.waiting event (.once number handler) = 0 := by
      rw [Stage.waiting, hend, List.countP_nil]
    have hkept := hlost hnever
    omega
  · have hle := waiting_le_underWay s₁ event (.once number handler)
    omega

/-- An event is emitted again while it is being emitted, before a handler has been called that is to hear it once. -/
theorem count_calls_twice :
    ∃ (before after : List (String × Listener String)) (s₁ s₂ s : Stage String String),
      Steps false {} before s₁ ∧ ("hit", Listener.once 0 "stop") ∉ before ∧
      Step false s₁ [("hit", .once 0 "stop")] s₂ ∧ Steps false s₂ after s ∧ s.rounds = [] ∧
      (before ++ ("hit", .once 0 "stop") :: after).count ("hit", .once 0 "stop") = 2 := by
  have hbefore : Steps false ({} : Stage String String) [("hit", .always "again"), ("hit", .always "again")]
      ⟨(on {} "hit" "again").once "hit" "stop", [⟨"hit", [.once 0 "stop"]⟩, ⟨"hit", [.once 0 "stop"]⟩]⟩ := by
    have horder : [.always "again", .once 0 "stop"].Perm
        (((on {} "hit" "again").once "hit" "stop").listening "hit") := by decide
    refine .head (@Step.act _ _ _ _ _ {} [] (.on "hit" "again") nofun) ?_
    refine .head (@Step.act _ _ _ _ _ _ [] (.once "hit" "stop") nofun) ?_
    exact .head (.emit horder) (.head .call (.head (.emit horder) (.head .call (.refl _))))
  have hafter : Steps false (⟨((on {} "hit" "again").once "hit" "stop").release "hit" (.once 0 "stop"),
      [⟨"hit", []⟩, ⟨"hit", [.once 0 "stop"]⟩]⟩ : Stage String String) [("hit", .once 0 "stop")]
      ⟨(((on {} "hit" "again").once "hit" "stop").release "hit" (.once 0 "stop")).release "hit" (.once 0 "stop"), []⟩ :=
    .head .finish (.head .call (.head .finish (.refl _)))
  refine ⟨_, _, _, _, _, hbefore, by decide, .call, hafter, rfl, ?_⟩
  exact (count_calls hbefore (by decide) .call hafter).2.1 rfl rfl

/-- A handler that reacts to an event with the same event, and one that is to hear it once. -/
theorem cascade_repeats :
    let m : Emitter String String := (on {} "hit" "again").once "hit" "stop"
    let reaction : String → List String := fun handler => if handler = "again" then ["hit"] else []
    m.listening "hit" = [.always "again", .once 0 "stop"] ∧
      (cascade reaction 1 m "hit").2.called = ["again", "again", "stop", "stop"] ∧
      ¬ (cascade reaction 1 m "hit").2.called.count "stop" ≤ 1 := by
  decide

end NestLint.Emitter
