import Mathlib.Data.List.Induction
import NestLint.Event.Emitter

/-!
# Who hears an event

Handlers are subscribed to events and unsubscribed, for any number of times, and events are emitted in between. Whoever
listens is called in no particular order, up to the first whose handler fails. A subscription for every time ends when
the handler is removed, one for a single time when it is reached by an emission, and both when all listeners are
cleared: removing a handler does nothing to its subscriptions for a single time.

The deeds are `on`, `once`, `remove`, `clear` and `emit` of `EventEmitter`.

* `emitIn`, `reached`, `serve_eq`: an emission in any order, and which listeners it reaches;
* `Stands`, `stands_append_singleton`: something that was given and has not been taken away since;
* `mem_listening_perform`, `mem_listening_performAll`: who listens after one deed and after any deeds;
* `called_iff`: which handlers an emission calls.
-/

namespace NestLint

/-- Whether a listener hears an event only once. -/
def Listener.isOnce {α : Type} : Listener α → Bool
  | .always _ => false
  | .once _ _ => true

namespace Emitter

variable {ε α : Type}

/-! ## Deeds -/

/-- What can be done with an emitter. An emission calls the listeners in some order. -/
inductive Deed (ε α : Type) where
  | on (event : ε) (handler : α)
  | once (event : ε) (handler : α)
  | remove (event : ε) (handler : α)
  | clear
  | emit (event : ε) (order : List (Listener α))

/-- How many of the deeds subscribe a handler for a single time. -/
def onces (deeds : List (Deed ε α)) : Nat :=
  deeds.countP fun
    | .once _ _ => true
    | _ => false

/-- The listeners that are reached: all up to the first whose handler fails. -/
def reached (fails : α → Bool) : List (Listener α) → List (Listener α)
  | [] => []
  | l :: rest => if fails l.handler then [l] else l :: reached fails rest

theorem reached_subset (fails : α → Bool) (order : List (Listener α)) : reached fails order ⊆ order := by
  induction order with
  | nil => exact List.Subset.refl _
  | cons l rest ih =>
    rw [reached]
    split
    · exact List.cons_subset_cons l (List.nil_subset _)
    · exact List.cons_subset_cons l ih

theorem reached_of_not_fails {fails : α → Bool} {order : List (Listener α)}
    (h : (reached fails order).any (fun l => fails l.handler) = false) : reached fails order = order := by
  induction order with
  | nil => rfl
  | cons l rest ih =>
    rw [reached] at h ⊢
    split at h
    · simp_all
    · rename_i hl
      rw [if_neg hl, ih]
      rw [List.any_cons, Bool.or_eq_false_iff] at h
      exact h.2

/-! ## What deeds bring about -/

/-- A deed makes a listener of a handler. The listener has a number if it hears the event only once. -/
def Deed.Gives (number : Nat) (event : ε) (l : Listener α) : Deed ε α → Prop
  | .on other handler => other = event ∧ l = .always handler
  | .once other handler => other = event ∧ l = .once number handler
  | .remove .. | .clear | .emit .. => False

/-- After a deed a listener does not listen any more. -/
def Deed.Takes (fails : α → Bool) (event : ε) (l : Listener α) : Deed ε α → Prop
  | .remove other handler => other = event ∧ l = .always handler
  | .clear => True
  | .emit other order => other = event ∧ l.isOnce ∧ l ∈ reached fails order
  | .on .. | .once .. => False

section

variable {fails : α → Bool} {event : ε} {handler : α} {deed : Deed ε α}

theorem gives_always_iff {number : Nat} :
    deed.Gives number event (.always handler) ↔ deed = .on event handler := by
  cases deed <;> simp [Deed.Gives, eq_comm]

theorem gives_once_iff {number n : Nat} :
    deed.Gives number event (.once n handler) ↔ deed = .once event handler ∧ n = number := by
  cases deed <;> simp [Deed.Gives]
  tauto

theorem takes_always_iff :
    deed.Takes fails event (.always handler) ↔ deed = .remove event handler ∨ deed = .clear := by
  cases deed <;> simp [Deed.Takes, Listener.isOnce, eq_comm]

theorem takes_once_iff {number : Nat} : deed.Takes fails event (.once number handler) ↔
    deed = .clear ∨ ∃ order, deed = .emit event order ∧ Listener.once number handler ∈ reached fails order := by
  cases deed <;> simp [Deed.Takes, Listener.isOnce]

end

/-- Something has been given by a deed, and no deed has taken it away since. -/
def Stands (gives : List (Deed ε α) → Deed ε α → Prop) (takes : Deed ε α → Prop) (deeds : List (Deed ε α)) : Prop :=
  ∃ before deed after, deeds = before ++ deed :: after ∧ gives before deed ∧ ∀ later ∈ after, ¬ takes later

theorem stands_append_singleton {gives : List (Deed ε α) → Deed ε α → Prop} {takes : Deed ε α → Prop}
    {deeds : List (Deed ε α)} {deed : Deed ε α} :
    Stands gives takes (deeds ++ [deed]) ↔ gives deeds deed ∨ Stands gives takes deeds ∧ ¬ takes deed := by
  constructor
  · rintro ⟨before, given, after, heq, hgives, hafter⟩
    induction after using List.reverseRecOn with
    | nil =>
      obtain ⟨rfl, hgiven⟩ := List.append_inj' heq rfl
      obtain rfl := List.singleton_inj.1 hgiven
      exact .inl hgives
    | append_singleton after last _ =>
      rw [← List.cons_append, ← List.append_assoc] at heq
      obtain ⟨rfl, hlast⟩ := List.append_inj' heq rfl
      obtain rfl := List.singleton_inj.1 hlast
      refine .inr ⟨⟨before, given, after, rfl, hgives, fun later hlater => ?_⟩, hafter _ (by simp)⟩
      exact hafter later (List.mem_append_left _ hlater)
  · rintro (hgives | ⟨⟨before, given, after, rfl, hgives, hafter⟩, htakes⟩)
    · exact ⟨deeds, deed, [], rfl, hgives, nofun⟩
    · refine ⟨before, given, after ++ [deed], by simp, hgives, fun later hlater => ?_⟩
      obtain hlater | hlater := List.mem_append.1 hlater
      · exact hafter later hlater
      · rwa [List.mem_singleton.1 hlater]

theorem Stands.mono {gives gives' : List (Deed ε α) → Deed ε α → Prop} {takes takes' : Deed ε α → Prop}
    {deeds : List (Deed ε α)} (h : Stands gives takes deeds)
    (hgives : ∀ before deed, gives before deed → gives' before deed) (htakes : ∀ deed, takes' deed → takes deed) :
    Stands gives' takes' deeds := by
  obtain ⟨before, deed, after, hdeeds, hgiven, hafter⟩ := h
  refine ⟨before, deed, after, hdeeds, hgives before deed hgiven, fun later hlater => ?_⟩
  exact mt (htakes later) (hafter later hlater)

/-- A handler has been subscribed to an event, for every time and not been removed since, or for a single time, and
neither been removed nor had the event emitted since. -/
def Wanted (event : ε) (handler : α) (deeds : List (Deed ε α)) : Prop :=
  Stands (fun _ deed => deed = .on event handler) (fun deed => deed = .remove event handler ∨ deed = .clear) deeds ∨
    Stands (fun _ deed => deed = .once event handler)
      (fun deed => deed = .remove event handler ∨ deed = .clear ∨ ∃ order, deed = .emit event order) deeds

/-- A handler has been subscribed to an event for a single time and has been removed after that, but the listeners have
not been cleared since it was subscribed, nor has the event been emitted. -/
def Overlooked (event : ε) (handler : α) (deeds : List (Deed ε α)) : Prop :=
  ∃ before between after, deeds = before ++ .once event handler :: between ++ .remove event handler :: after ∧
    ∀ deed ∈ between ++ after, ¬ (deed = .clear ∨ ∃ order, deed = .emit event order)

/-- A subscription for a single time has been made, and has not been used since. -/
def Unheard (event : ε) (handler : α) (deeds : List (Deed ε α)) : Prop :=
  Stands (fun _ deed => deed = .once event handler) (fun deed => deed = .clear ∨ ∃ order, deed = .emit event order)
    deeds

/-- A listener has been made by a deed, and nothing has been done since after which it does not listen. -/
def Listens (fails : α → Bool) (event : ε) (l : Listener α) (deeds : List (Deed ε α)) : Prop :=
  Stands (fun before deed => deed.Gives (onces before) event l) (fun deed => deed.Takes fails event l) deeds

section

variable {fails : α → Bool} {event : ε} {handler : α} {deeds : List (Deed ε α)}

theorem listens_always_iff : Listens fails event (.always handler) deeds ↔
    Stands (fun _ deed => deed = .on event handler) (fun deed => deed = .remove event handler ∨ deed = .clear) deeds :=
  ⟨fun h => h.mono (fun _ _ => gives_always_iff.1) fun _ => takes_always_iff.2,
    fun h => h.mono (fun _ _ => gives_always_iff.2) fun _ => takes_always_iff.1⟩

/-- A pending subscription for a single time counts as wanted unless the handler has been removed after it. -/
theorem unheard_iff : Unheard event handler deeds ↔
    Stands (fun _ deed => deed = .once event handler)
        (fun deed => deed = .remove event handler ∨ deed = .clear ∨ ∃ order, deed = .emit event order) deeds ∨
      Overlooked event handler deeds := by
  constructor
  · rintro ⟨before, deed, after, rfl, rfl, hafter⟩
    by_cases hremove : Deed.remove event handler ∈ after
    · obtain ⟨between, rest, rfl⟩ := List.append_of_mem hremove
      refine .inr ⟨before, between, rest, by simp, fun d hd => hafter d ?_⟩
      obtain hd | hd := List.mem_append.1 hd
      · exact List.mem_append_left _ hd
      · exact List.mem_append_right _ (List.mem_cons_of_mem _ hd)
    · refine .inl ⟨before, _, after, rfl, rfl, fun later hlater htakes => ?_⟩
      obtain rfl | htakes := htakes
      · exact hremove hlater
      · exact hafter later hlater htakes
  · rintro (hstands | ⟨before, between, after, rfl, hafter⟩)
    · exact hstands.mono (fun _ _ => id) fun _ => .inr
    · refine ⟨before, _, between ++ .remove event handler :: after, by simp, rfl, fun later hlater => ?_⟩
      obtain hlater | hlater := List.mem_append.1 hlater
      · exact hafter later (List.mem_append_left _ hlater)
      · obtain rfl | hlater := List.mem_cons.1 hlater
        · rintro (h | ⟨order, h⟩) <;> cases h
        · exact hafter later (List.mem_append_right _ hlater)

end

variable [DecidableEq ε] [DecidableEq α]

/-- Emit an event to listeners in some order. Some handlers fail. -/
def emitIn (fails : α → Bool) (m : Emitter ε α) (event : ε) (order : List (Listener α)) : Emitter ε α × Calls α :=
  serve (fun m handler => (m, ⟨[handler], fails handler⟩)) event order (m.change event id)

/-- One of the orders is that in which the listeners are known. -/
theorem emit_eq_emitIn (fails : α → Bool) (m : Emitter ε α) (event : ε) :
    m.emit fails event = m.emitIn fails event (m.listening event) := rfl

/-- An emitter after a deed. -/
def perform (fails : α → Bool) (m : Emitter ε α) : Deed ε α → Emitter ε α
  | .on event handler => m.on event handler
  | .once event handler => m.once event handler
  | .remove event handler => m.remove event handler
  | .clear => m.clear
  | .emit event order => (m.emitIn fails event order).1

/-- An emitter after several deeds. -/
def performAll (fails : α → Bool) (m : Emitter ε α) (deeds : List (Deed ε α)) : Emitter ε α :=
  deeds.foldl (perform fails) m

/-- An emission calls those who listen at the time. -/
def Deed.Admissible (m : Emitter ε α) : Deed ε α → Prop
  | .emit event order => order.Perm (m.listening event)
  | _ => True

/-- Every emission calls those who listen at the time. -/
def Orderly (fails : α → Bool) : Emitter ε α → List (Deed ε α) → Prop
  | _, [] => True
  | m, deed :: rest => deed.Admissible m ∧ Orderly fails (perform fails m deed) rest

theorem orderly_append {fails : α → Bool} {m : Emitter ε α} {deeds more : List (Deed ε α)} :
    Orderly fails m (deeds ++ more) ↔ Orderly fails m deeds ∧ Orderly fails (performAll fails m deeds) more := by
  induction deeds generalizing m with
  | nil => exact (iff_of_eq (true_and _)).symm
  | cons deed rest ih =>
    rw [List.cons_append, Orderly, Orderly, ih, and_assoc]
    rfl

variable {fails : α → Bool} {m : Emitter ε α} {event other : ε} {handler : α} {l : Listener α}

/-! ## Emissions -/

/-- What is left of an emitter when listeners have been called, one after the other. -/
def releaseAll (m : Emitter ε α) (event : ε) (listeners : List (Listener α)) : Emitter ε α :=
  listeners.foldl (fun m l => m.release event l) m

theorem serve_eq (fails : α → Bool) (event : ε) (order : List (Listener α)) (m : Emitter ε α) :
    serve (fun m handler => (m, ⟨[handler], fails handler⟩)) event order m =
      (m.releaseAll event (reached fails order),
        ⟨(reached fails order).map Listener.handler, (reached fails order).any fun l => fails l.handler⟩) := by
  induction order generalizing m with
  | nil => rfl
  | cons l rest ih =>
    rw [serve, reached]
    by_cases hl : fails l.handler
    · simp [hl, releaseAll]
    · simp [hl, ih, releaseAll]

theorem mem_listening_release {k : Listener α} : k ∈ (m.release event l).listening other ↔
    k ∈ m.listening other ∧ ¬ (event = other ∧ k.isOnce ∧ k = l) := by
  cases l with
  | always handler =>
    have hnot : ¬ (event = other ∧ k.isOnce ∧ k = .always handler) := by
      rintro ⟨-, honce, rfl⟩
      cases honce
    rw [release, and_iff_left hnot]
  | once number handler =>
    have hiff : k.isOnce ∧ k = .once number handler ↔ k = .once number handler :=
      and_iff_right_of_imp fun hk => hk ▸ rfl
    rw [release, listening_change, hiff]
    by_cases hevent : event = other
    · simp [hevent]
    · simp [hevent]

theorem mem_listening_releaseAll {k : Listener α} {listeners : List (Listener α)} :
    k ∈ (m.releaseAll event listeners).listening other ↔
      k ∈ m.listening other ∧ ¬ (event = other ∧ k.isOnce ∧ k ∈ listeners) := by
  induction listeners generalizing m with
  | nil => simp [releaseAll]
  | cons l rest ih =>
    rw [show m.releaseAll event (l :: rest) = (m.release event l).releaseAll event rest from rfl, ih,
      mem_listening_release, List.mem_cons]
    tauto

theorem issued_release (m : Emitter ε α) (event : ε) (l : Listener α) : (m.release event l).issued = m.issued := by
  cases l <;> rfl

theorem issued_releaseAll (m : Emitter ε α) (event : ε) (listeners : List (Listener α)) :
    (m.releaseAll event listeners).issued = m.issued := by
  induction listeners generalizing m with
  | nil => rfl
  | cons l rest ih => exact (ih (m.release event l)).trans (issued_release m event l)

/-! ## Who listens -/

theorem mem_withListener {k : Listener α} {listeners : List (Listener α)} :
    k ∈ withListener l listeners ↔ k = l ∨ k ∈ listeners := by
  rw [withListener]
  split
  · rename_i hl
    exact ⟨.inr, fun h => h.elim (fun hk => hk ▸ hl) id⟩
  · rw [List.mem_append, List.mem_singleton, or_comm]

/-- What a deed does to those who listen. -/
theorem mem_listening_perform {deed : Deed ε α} : l ∈ (perform fails m deed).listening event ↔
    deed.Gives m.issued event l ∨ l ∈ m.listening event ∧ ¬ deed.Takes fails event l := by
  cases deed with
  | on other handler =>
    rw [perform, Emitter.on, listening_change, Deed.Gives, Deed.Takes, not_false_iff, and_true]
    split
    · rename_i hevent
      rw [mem_withListener, and_iff_right hevent, hevent]
    · rename_i hevent
      rw [or_iff_right fun h => hevent h.1]
  | once other handler =>
    rw [perform, Emitter.once, Deed.Gives, Deed.Takes, not_false_iff, and_true]
    change l ∈ (m.change other _).listening event ↔ _
    rw [listening_change]
    split
    · rename_i hevent
      rw [mem_withListener, and_iff_right hevent, hevent]
    · rename_i hevent
      rw [or_iff_right fun h => hevent h.1]
  | remove other handler =>
    rw [perform, Emitter.remove, listening_change, Deed.Gives, Deed.Takes, false_or]
    split
    · rename_i hevent
      rw [and_iff_right hevent, hevent, List.mem_filter, decide_eq_true_iff]
    · rename_i hevent
      rw [and_iff_left fun h => hevent h.1]
  | clear => simp [perform, listening_clear, Deed.Gives, Deed.Takes]
  | emit other order =>
    rw [perform, emitIn, serve_eq, Deed.Gives, Deed.Takes, false_or, mem_listening_releaseAll, listening_change]
    split
    · rename_i hevent
      rw [hevent, id]
    · rfl

theorem performAll_append_singleton (fails : α → Bool) (m : Emitter ε α) (deeds : List (Deed ε α)) (deed : Deed ε α) :
    performAll fails m (deeds ++ [deed]) = perform fails (performAll fails m deeds) deed := by
  rw [performAll, List.foldl_append]
  rfl

theorem issued_perform (fails : α → Bool) (m : Emitter ε α) (deed : Deed ε α) :
    (perform fails m deed).issued = m.issued + onces [deed] := by
  cases deed with
  | emit event order =>
    rw [perform, emitIn, serve_eq, issued_releaseAll]
    rfl
  | _ => rfl

theorem issued_performAll (fails : α → Bool) (deeds : List (Deed ε α)) :
    (performAll fails {} deeds).issued = onces deeds := by
  induction deeds using List.reverseRecOn with
  | nil => rfl
  | append_singleton deeds deed ih =>
    rw [performAll_append_singleton, issued_perform, ih, onces, onces, onces, List.countP_append]

/-- What becomes of all subscriptions, by induction from the last deed. -/
theorem mem_listening_performAll (deeds : List (Deed ε α)) :
    l ∈ (performAll fails {} deeds).listening event ↔ Listens fails event l deeds := by
  induction deeds using List.reverseRecOn with
  | nil =>
    refine ⟨nofun, ?_⟩
    rintro ⟨before, deed, after, h, -⟩
    simp at h
  | append_singleton deeds deed ih =>
    rw [performAll_append_singleton, mem_listening_perform, issued_performAll, ih]
    rw [Listens, Listens, stands_append_singleton]

/-! ## Who is called -/

variable {deeds : List (Deed ε α)}

/-- If no handler ever fails, a subscription for a single time is used when the event is next emitted: up to then it
listens, so it is among those that are called. -/
theorem listens_once_iff (hfails : ∀ handler, fails handler = false) (hdeeds : Orderly fails {} deeds) :
    (∃ number, Listens fails event (.once number handler) deeds) ↔ Unheard event handler deeds := by
  have hreached (order : List (Listener α)) : reached fails order = order :=
    reached_of_not_fails (by simp [hfails])
  constructor
  · rintro ⟨number, before, deed, after, rfl, hgives, hafter⟩
    refine ⟨before, deed, after, rfl, (gives_once_iff.1 hgives).1, fun later hlater htakes => ?_⟩
    obtain rfl | ⟨order, rfl⟩ := htakes
    · exact hafter _ hlater (takes_once_iff.2 (.inl rfl))
    · obtain ⟨between, rest, rfl⟩ := List.append_of_mem hlater
      have hlistens : Listens fails event (.once number handler) (before ++ deed :: between) :=
        ⟨before, deed, between, rfl, hgives, fun d hd => hafter d (List.mem_append_left _ hd)⟩
      rw [← List.cons_append, ← List.append_assoc] at hdeeds
      have horder : order.Perm _ := (orderly_append.1 hdeeds).2.1
      have hmem := horder.mem_iff.2 ((mem_listening_performAll _).2 hlistens)
      exact hafter _ hlater (takes_once_iff.2 (.inr ⟨order, rfl, (hreached order).symm ▸ hmem⟩))
  · rintro ⟨before, deed, after, rfl, rfl, hafter⟩
    refine ⟨onces before, before, _, after, rfl, gives_once_iff.2 ⟨rfl, rfl⟩, fun later hlater htakes => ?_⟩
    obtain rfl | ⟨order, rfl, -⟩ := takes_once_iff.1 htakes
    · exact hafter _ hlater (.inl rfl)
    · exact hafter _ hlater (.inr ⟨order, rfl⟩)

/-- An emission calls listeners only, and all of them unless a handler fails. If no handler ever fails, it calls a
handler exactly if it is wanted, or if it was removed in vain: removing it has done nothing to a subscription for a
single time that has not been used since. -/
theorem called_iff (hdeeds : Orderly fails {} deeds) {order : List (Listener α)}
    (horder : order.Perm ((performAll fails {} deeds).listening event)) (handler : α) :
    let calls := ((performAll fails {} deeds).emitIn fails event order).2
    (handler ∈ calls.called → ∃ l, l.handler = handler ∧ Listens fails event l deeds) ∧
    (calls.failed = false → (∃ l, l.handler = handler ∧ Listens fails event l deeds) → handler ∈ calls.called) ∧
    ((∀ handler, fails handler = false) →
      (handler ∈ calls.called ↔ Wanted event handler deeds ∨ Overlooked event handler deeds)) := by
  have hlistens (l : Listener α) : l ∈ order ↔ Listens fails event l deeds :=
    horder.mem_iff.trans (mem_listening_performAll deeds)
  simp only [emitIn, serve_eq]
  refine ⟨fun hcalled => ?_, fun hfailed hl => ?_, fun hfails => ?_⟩
  · obtain ⟨l, hl, hhandler⟩ := List.mem_map.1 hcalled
    exact ⟨l, hhandler, (hlistens l).1 (reached_subset fails order hl)⟩
  · obtain ⟨l, hhandler, hl⟩ := hl
    rw [reached_of_not_fails hfailed]
    exact List.mem_map.2 ⟨l, (hlistens l).2 hl, hhandler⟩
  · have hall : reached fails order = order := reached_of_not_fails (by simp [hfails])
    have hsplit : (∃ l, l ∈ order ∧ l.handler = handler) ↔
        Listens fails event (.always handler) deeds ∨ ∃ number, Listens fails event (.once number handler) deeds := by
      constructor
      · rintro ⟨l, hl, rfl⟩
        cases l with
        | always handler => exact .inl ((hlistens _).1 hl)
        | once number handler => exact .inr ⟨number, (hlistens _).1 hl⟩
      · rintro (hl | ⟨number, hl⟩)
        · exact ⟨_, (hlistens _).2 hl, rfl⟩
        · exact ⟨_, (hlistens _).2 hl, rfl⟩
    rw [hall, List.mem_map, hsplit, listens_always_iff, listens_once_iff hfails hdeeds, unheard_iff, Wanted, or_assoc]

/-- A handler that is removed while it is to hear an event once hears it all the same, behind another one that hears it
every time. It is not called for another event, for which it has been removed for good. -/
theorem called_iff_removed :
    let fails : String → Bool := fun _ => false
    let deeds : List (Deed String String) :=
      [.on "hit" "log", .on "miss" "stop", .once "hit" "stop", .once "miss" "log", .remove "hit" "stop",
        .remove "miss" "stop", .emit "miss" [.once 1 "log"]]
    let order : List (Listener String) := [.once 0 "stop", .always "log"]
    let m := performAll fails {} deeds
    Orderly fails {} deeds ∧ order.Perm (m.listening "hit") ∧
      (∀ handler, fails handler = false) ∧
      ("stop" ∈ (m.emitIn fails "hit" order).2.called ↔ Wanted "hit" "stop" deeds ∨ Overlooked "hit" "stop" deeds) ∧
      (m.emitIn fails "hit" order).2.called = ["stop", "log"] ∧ m.listening "miss" = [] := by
  intro fails deeds order m
  have hdeeds : Orderly fails {} deeds :=
    ⟨trivial, trivial, trivial, trivial, trivial, trivial, List.Perm.refl _, trivial⟩
  have horder : order.Perm (m.listening "hit") := List.Perm.swap ..
  exact ⟨hdeeds, horder, fun _ => rfl, (called_iff hdeeds horder "stop").2.2 fun _ => rfl, by decide, by decide⟩

/-- Removing a handler in vain. -/
theorem called_after_removal :
    let fails : String → Bool := fun _ => false
    let deeds : List (Deed String String) := [.once "hit" "stop", .remove "hit" "stop"]
    ((performAll fails {} deeds).emit fails "hit").2.called = ["stop"] ∧ ¬ Wanted "hit" "stop" deeds := by
  intro fails deeds
  have hdeeds : deeds = [] ++ [.once "hit" "stop"] ++ [.remove "hit" "stop"] := rfl
  refine ⟨by decide, ?_⟩
  rintro (hstands | hstands)
  · rw [hdeeds, stands_append_singleton] at hstands
    simp at hstands
  · rw [hdeeds, stands_append_singleton] at hstands
    simp at hstands

end Emitter

end NestLint
