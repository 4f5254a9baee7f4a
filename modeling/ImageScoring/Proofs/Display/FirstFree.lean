import ImageScoring.Proofs.Display.Probing
import ImageScoring.Proofs.Display.Template

/-!
# The first free display

What the servers do decides what an allocation finds. If each of them either signals readiness and
stays or ends, the least display whose server is ready is taken, and the servers of all displays up
to it have been launched, once each and in order, each of them with its own number in place of the
placeholders (`Template.Filled`). Other child processes may end at any time meanwhile.
-/

namespace ImageScoring

/-! ### What servers do -/

/-- What becomes of a display server: it signals that its display is bound and stays, or it ends. -/
inductive Fate where
  | ready
  | ended (how : ProcessEnd)
  deriving DecidableEq, Repr

/-- Whether an event is something that the server does. -/
def ServerEvent.isOwn : ServerEvent → Bool
  | .otherEnded => false
  | .ready | .ended _ => true

/-- What a server of that fate does. -/
def Fate.event : Fate → ServerEvent
  | .ready => .ready
  | .ended how => .ended how

/-- The events show that fate: it is the one thing that the server does, while other processes may
end at any time. -/
def Fate.Shown (fate : Fate) (events : List ServerEvent) : Prop :=
  events.filter ServerEvent.isOwn = [fate.event]

theorem Fate.shown_cons {fate : Fate} {event : ServerEvent} {events : List ServerEvent}
    (hown : event.isOwn = true) : fate.Shown (event :: events) ↔
      event = fate.event ∧ events.filter ServerEvent.isOwn = [] := by
  rw [Shown, List.filter_cons_of_pos hown, List.cons.injEq]

/-- The server of a display when its fate is known: one that has ended has been collected. -/
def Fate.launched (server : Command) (display : Nat) : Fate → Server
  | .ready => { display, command := Template.command server display, signalled := true }
  | .ended how =>
    { display, command := Template.command server display, ended := some how, collected := true }

/-- Nothing is pending but that child processes have ended. -/
def Exits (pending : List Notification) : Prop :=
  ∀ notification ∈ pending, notification = .childExited

theorem Exits.concat {pending : List Notification} (h : Exits pending) :
    Exits (pending ++ [.childExited]) :=
  List.forall_mem_append.mpr ⟨h, by simp⟩

namespace Watched

variable {events : List ServerEvent} {s s' : Server} {pending left : List Notification}
  {result : Probe}

/-- A server that has signalled readiness, and does nothing more, is found to be ready. -/
theorem ready_of_signalled (h : Watched events s pending result s' left)
    (hquiet : events.filter ServerEvent.isOwn = []) (hs : s.ended = none)
    (hpending : .ready ∈ pending) : result = .ready ∧ s' = s := by
  induction h with
  | hung => cases hpending
  | @happens event _ _ _ _ _ _ _ ih =>
    cases event with
    | otherEnded => exact ih hquiet hs (List.mem_append_left _ hpending)
    | ready => cases hquiet
    | ended how => cases hquiet
  | ready => exact ⟨rfl, rfl⟩
  | ended hended => simp [hs] at hended
  | again _ _ ih => exact ih hquiet hs (by simpa using hpending)

/-- A server that signals readiness and stays is found to be ready. -/
theorem of_ready (h : Watched events s pending result s' left) (hshown : Fate.ready.Shown events)
    (hs : s.ended = none) (hpending : Exits pending) :
    result = .ready ∧ s' = { s with signalled := true } := by
  induction h with
  | hung => cases hshown
  | @happens event _ _ _ _ _ _ hlater ih =>
    cases event with
    | otherEnded => exact ih hshown hs hpending.concat
    | ready =>
      obtain ⟨-, hquiet⟩ := (Fate.shown_cons rfl).mp hshown
      exact hlater.ready_of_signalled hquiet hs (by simp [ServerEvent.notification])
    | ended how => cases ((Fate.shown_cons rfl).mp hshown).1
  | ready => simp [Exits] at hpending
  | ended hended => simp [hs] at hended
  | again _ _ ih => exact ih hshown hs (List.forall_mem_cons.mp hpending).2

/-- A server that has ended is found to have ended as soon as any process is. -/
theorem ended_of_ended {ended : ProcessEnd} (h : Watched events s pending result s' left)
    (hquiet : events.filter ServerEvent.isOwn = []) (hs : s.ended = some ended)
    (hpending : Exits pending) (hsome : pending ≠ []) :
    result = .ended ∧ s' = { s with collected := true } ∧ Exits left := by
  induction h with
  | hung => exact absurd rfl hsome
  | @happens event _ _ _ _ _ _ _ ih =>
    cases event with
    | otherEnded => exact ih hquiet hs hpending.concat (by simp)
    | ready => cases hquiet
    | ended how => cases hquiet
  | ready => simp [Exits] at hpending
  | ended _ => exact ⟨rfl, rfl, (List.forall_mem_cons.mp hpending).2⟩
  | again hnone _ _ => simp [hs] at hnone

/-- A server that ends is found to have ended, and no readiness stays pending behind it. -/
theorem of_ended {ended : ProcessEnd} (h : Watched events s pending result s' left)
    (hshown : (Fate.ended ended).Shown events) (hs : s.ended = none) (hpending : Exits pending) :
    result = .ended ∧ s' = { s with ended := some ended, collected := true } ∧ Exits left := by
  induction h with
  | hung => cases hshown
  | @happens event _ s _ _ _ _ hlater ih =>
    cases event with
    | otherEnded => exact ih hshown hs hpending.concat
    | ready => cases ((Fate.shown_cons rfl).mp hshown).1
    | ended how =>
      obtain ⟨hhow, hquiet⟩ := (Fate.shown_cons rfl).mp hshown
      cases hhow
      have hafter : s.after (.ended ended) = { s with ended := some ended } := by
        simp [Server.after, hs]
      rw [hafter] at hlater
      exact hlater.ended_of_ended hquiet rfl hpending.concat (by simp)
  | ready => simp [Exits] at hpending
  | ended hended => simp [hs] at hended
  | again _ _ ih => exact ih hshown hs (List.forall_mem_cons.mp hpending).2

end Watched

/-! ### The search -/

namespace Displays

variable {start : ServerStart} {server : Command} {candidates : Nat} {fates : Nat → Fate}

/-- The server of that display can be launched, and then meets its fate. -/
def Meets (start : ServerStart) (server : Command) (fates : Nat → Fate) (display : Nat) : Prop :=
  ∃ groups, (Template.command server display).started
      (start display (Template.command server display)) = .ok groups ∧
    (fates display).Shown groups.flatten

/-- The server of that display when its fate is known. -/
def met (server : Command) (fates : Nat → Fate) (display : Nat) : Server :=
  (fates display).launched server display

/-- The search passes over displays whose servers end. -/
theorem tryFrom_busy (busy count : Nat) {display : Nat} (previous : Dispositions)
    {pending : List Notification} (before : List Server) (hpending : Exits pending)
    (hmeets : ∀ i, display ≤ i → i < display + busy → Meets start server fates i)
    (hbusy : ∀ i, display ≤ i → i < display + busy → fates i ≠ .ready) :
    ∃ left, Exits left ∧
      tryFrom start server display (busy + count) (searching previous pending before) =
        tryFrom start server (display + busy) count (searching previous left
          (before ++ (List.range' display busy).map (met server fates))) := by
  induction busy generalizing display pending before with
  | zero => exact ⟨pending, hpending, by simp⟩
  | succ busy ih =>
    obtain ⟨groups, hstart, hshown⟩ := hmeets display (by omega) (by omega)
    obtain ⟨result, s', left, hwatched, hprobe⟩ :=
      probe_watched groups { display, command := Template.command server display } pending
    rcases hfate : fates display with _ | how
    · exact absurd hfate (hbusy display (by omega) (by omega))
    · -- nothing but exits stays pending, so the next server is watched as the first one was
      rw [hfate] at hshown
      obtain ⟨rfl, hs', hleft⟩ := hwatched.of_ended hshown rfl hpending
      obtain rfl : s' = met server fates display := by rw [hs', met, hfate, Fate.launched]
      obtain ⟨left', hleft', hsearch⟩ := ih (before ++ [met server fates display]) hleft
        (fun i (hi : display + 1 ≤ i) hi' => hmeets i (by omega) (by omega))
        (fun i hi hi' => hbusy i (by omega) (by omega))
      refine ⟨left', hleft', ?_⟩
      rw [Nat.add_right_comm, tryFrom_of_ended hstart (hprobe previous before), hsearch,
        List.range'_succ, List.map_cons, List.append_assoc, Nat.add_right_comm, Nat.add_assoc]
      rfl

/-- The display of the first server that signals readiness is taken. -/
theorem tryFrom_first_ready (previous : Dispositions) (before : List Server) {k : Nat}
    (hk : k < candidates) (hmeets : ∀ i ≤ k, Meets start server fates i)
    (hready : fates k = .ready) (hbusy : ∀ i < k, fates i ≠ .ready) :
    ∃ left, tryFrom start server 0 candidates (searching previous [] before) =
      (.ok (some ⟨k, some (before.length + k)⟩), searching previous left
        (before ++ (List.range (k + 1)).map (met server fates))) := by
  obtain ⟨count, rfl⟩ := Nat.exists_eq_add_of_lt hk
  have hnone : Exits [] := by simp [Exits]
  obtain ⟨left, hleft, hsearch⟩ := tryFrom_busy k (count + 1) previous before hnone
    (fun i (_ : 0 ≤ i) hi => hmeets i (by omega)) (fun i _ hi => hbusy i (by omega))
  obtain ⟨groups, hstart, hshown⟩ := hmeets k (Nat.le_refl k)
  rw [hready] at hshown
  obtain ⟨result, s', left', hwatched, hprobe⟩ :=
    probe_watched groups { display := k, command := Template.command server k } left
  obtain ⟨rfl, hs'⟩ := hwatched.of_ready hshown rfl hleft
  obtain rfl : s' = met server fates k := by rw [hs', met, hready, Fate.launched]
  refine ⟨left', ?_⟩
  rw [Nat.add_assoc, hsearch, Nat.zero_add, tryFrom_of_ready hstart (hprobe previous _),
    ← List.range_eq_range', List.range_succ, List.map_append, List.length_append, List.length_map,
    List.length_range, List.append_assoc]
  rfl

/-- **The first free display is taken.** The servers of all displays up to it have been launched,
in order, once each: those before have ended and have been collected, and the last one runs. If
none is free, all candidates have been launched, and have ended. In every case the notifier is what
it was, and a later allocation goes the same way. -/
theorem allocate_first_free (start : ServerStart) (server : Command) (candidates : Nat)
    (d : Displays) (hnone : d.notifier.channel = none) :
    (∀ fates : Nat → Fate, ∀ k < candidates, (∀ i ≤ k, Meets start server fates i) →
      fates k = .ready → (∀ i < k, fates i ≠ .ready) →
      allocate start server candidates d = (.ok ⟨k, some (d.servers.length + k)⟩,
        { d with servers := d.servers ++ (List.range (k + 1)).map (met server fates) })) ∧
    (∀ fates : Nat → Fate, (∀ i < candidates, Meets start server fates i) →
      (∀ i < candidates, fates i ≠ .ready) →
      allocate start server candidates d = (.error (.displayExhausted candidates),
        { d with servers := d.servers ++ (List.range candidates).map (met server fates) })) ∧
    (∀ fault, 0 < candidates → (Template.command server 0).started
        (start 0 (Template.command server 0)) = .error fault →
      ∃ cause, allocate start server candidates d = (.error (.display cause), d)) ∧
    (∀ display, List.Forall₂ (Template.Filled display) server.args
      (Template.command server display).args) ∧
    (allocate start server candidates d).2.notifier = d.notifier ∧
    ∃ (answer : Except Error Lease) (tried : List Server), ∀ d', d'.notifier.channel = none →
      allocate start server candidates d' =
        (answer.map (Lease.behind d'.servers.length),
          { d' with servers := d'.servers ++ tried }) := by
  refine ⟨fun fates k hk hmeets hready hbusy => ?_, fun fates hmeets hbusy => ?_,
    fun fault hpos hstart => ?_, Template.command_filled server, ?_,
    allocate_framed start server candidates⟩
  · obtain ⟨left, hsearch⟩ := tryFrom_first_ready d.notifier.dispositions d.servers hk hmeets
      hready hbusy
    rw [allocate_eq hnone, hsearch]
    rfl
  · have hnothing : Exits [] := by simp [Exits]
    obtain ⟨left, -, hsearch⟩ := tryFrom_busy candidates 0 d.notifier.dispositions d.servers
      hnothing (fun i (_ : 0 ≤ i) hi => hmeets i (by omega)) (fun i _ hi => hbusy i (by omega))
    rw [Nat.add_zero] at hsearch
    rw [allocate_eq hnone, hsearch, List.range_eq_range']
    rfl
  · obtain ⟨count, rfl⟩ := Nat.exists_eq_add_of_lt hpos
    rw [allocate_eq hnone, tryFrom_of_fault hstart]
    exact ⟨_, rfl⟩
  · rw [allocate_eq hnone]

/-- Display zero is taken and the server of display one is killed; all others are free. -/
def smallFates : Nat → Fate
  | 0 => .ended (.exited 1)
  | 1 => .ended (.signaled 9 false)
  | _ => .ready

/-- Another process ends whenever a server is waited for. -/
def smallStart : ServerStart := fun display _ =>
  .ok [[.otherEnded], [(smallFates display).event]]

def smallServer : Command := ⟨"Xvfb", [":" ++ displayPlaceholder]⟩

theorem meets_small : ∀ i ≤ 2, Meets smallStart smallServer smallFates i
  | 0, _ => ⟨_, rfl, rfl⟩
  | 1, _ => ⟨_, rfl, rfl⟩
  | 2, _ => ⟨_, rfl, rfl⟩

theorem third_free_small :
    allocate smallStart smallServer 5 {} = (.ok ⟨2, some 2⟩,
        { servers := (List.range 3).map (met smallServer smallFates) }) ∧
      ((List.range 3).map (met smallServer smallFates)).map Server.isRunning =
        [false, false, true] := by
  have hbusy : ∀ i < 2, smallFates i ≠ .ready := by decide
  obtain ⟨hfree, -⟩ := allocate_first_free smallStart smallServer 5 {} rfl
  exact ⟨hfree smallFates 2 (by decide) meets_small rfl hbusy, by decide +kernel⟩

end Displays

end ImageScoring
