import ImageScoring.Display.SelfPipe
import Mathlib.Data.List.Nodup

/-!
# A faithful slot for notifications

Whatever is armed, refused, dropped, signalled and waited for, the process is in one of two states
(`shown`): it is as it was at the start, or one channel is armed and something is pending in it.
`Moves` tells what the steps do to that, so no notification is lost, doubled or mixed with those of
another channel, and a dropped channel leaves no trace (`faithful`). The notifier that a search for
a display works with is what is seen of this from outside (`performAll_seen`).
-/

namespace ImageScoring.SelfPipe

/-! ### Pipes -/

theorem unused_notMem (used : List Nat) : unused used ∉ used := by
  have hfound : ((List.range (used.length + 1)).find? (· ∉ used)).isSome = true := by
    rw [List.find?_isSome]
    by_contra hno
    have hsub : List.range (used.length + 1) ⊆ used := by
      intro n hn
      by_contra hunused
      exact hno ⟨n, hn, by simpa using hunused⟩
    have hle := List.nodup_range.length_le_of_subset hsub
    rw [List.length_range] at hle
    omega
  obtain ⟨n, hn⟩ := Option.isSome_iff_exists.mp hfound
  rw [unused, hn, Option.getD_some]
  simpa using List.find?_some hn

@[simp] theorem ofOctet_octet (notification : Notification) :
    ofOctet (octet notification) = notification := by
  cases notification <;> rfl

theorem map_ofOctet (pending : List Notification) :
    (pending.map octet).map ofOctet = pending := by
  simp [Function.comp_def]

theorem map_of_notMem {pipes : List (Nat × Bytes)} {number : Nat} {f : Nat × Bytes → Nat × Bytes}
    (h : number ∉ pipes.map Prod.fst) (hf : ∀ pipe, pipe.1 ≠ number → f pipe = pipe) :
    pipes.map f = pipes := by
  have hself : ∀ pipe ∈ pipes, f pipe = pipe := by
    intro pipe hpipe
    refine hf pipe ?_
    rintro rfl
    exact h (List.mem_map_of_mem hpipe)
  rw [List.map_congr_left hself, List.map_id']

theorem filter_of_notMem {pipes : List (Nat × Bytes)} {number : Nat}
    (h : number ∉ pipes.map Prod.fst) : pipes.filter (·.1 ≠ number) = pipes := by
  refine List.filter_eq_self.mpr fun pipe hpipe => decide_eq_true ?_
  rintro rfl
  exact h (List.mem_map_of_mem hpipe)

/-! ### Publishing -/

section

variable {p : Plumbing} {expected next : Option Nat}

theorem exchange_of_eq (h : p.published = expected) :
    p.exchange expected next = some { p with published := next } :=
  if_pos h

theorem exchange_of_ne (h : p.published ≠ expected) : p.exchange expected next = none :=
  if_neg h

end

/-! ### The two states -/

variable {start : Plumbing}

/-- The number that the pipe of a channel gets. -/
def pipeOf (start : Plumbing) : Nat :=
  unused (start.pipes.map Prod.fst)

theorem pipeOf_notMem : pipeOf start ∉ start.pipes.map Prod.fst :=
  unused_notMem _

/-- The channel that is armed, if one is. -/
def channelOf (start : Plumbing) : Channel where
  pipe := pipeOf start
  previous := [(.ready, start.dispositions.ready), (.childExited, start.dispositions.childExited)]

/-- The plumbing while that channel is armed and something is pending in it. -/
def armedWith (start : Plumbing) (pending : List Notification) : Plumbing where
  published := some (pipeOf start)
  dispositions := .notifying
  pipes := (pipeOf start, pending.map octet) :: start.pipes

/-- The process as it was at the start, or with a channel and what is pending in it. -/
def shown (start : Plumbing) : Option (List Notification) → Installation
  | none => ⟨start, []⟩
  | some pending => ⟨armedWith start pending, [channelOf start]⟩

section

variable {pending : List Notification} {signal first : Notification}

theorem arm_idle (hstart : start.published = none) :
    start.arm = (.ok (channelOf start), armedWith start []) := by
  have hopen : start.openPipe =
      (pipeOf start, { start with pipes := (pipeOf start, []) :: start.pipes }) := rfl
  have hpublish : ({ start with pipes := (pipeOf start, []) :: start.pipes } : Plumbing).exchange
      none (some (pipeOf start)) =
        some { start with
          published := some (pipeOf start), pipes := (pipeOf start, []) :: start.pipes } :=
    exchange_of_eq hstart
  rw [Plumbing.arm, hopen]
  dsimp only
  rw [hpublish]
  rfl

/-- Arming a second channel opens a pipe and closes it again, and that is all. -/
theorem arm_armed :
    (armedWith start pending).arm =
      (.error Notifier.alreadyArmed, armedWith start pending) := by
  have hopen : (armedWith start pending).openPipe = (pipeOf (armedWith start pending),
      { armedWith start pending with
        pipes := (pipeOf (armedWith start pending), []) :: (armedWith start pending).pipes }) := rfl
  rw [Plumbing.arm, hopen]
  dsimp only
  rw [exchange_of_ne (Option.some_ne_none _)]
  dsimp only [Plumbing.closePipe]
  rw [List.filter_cons_of_neg (by simp), filter_of_notMem pipeOf_notMem]

/-- A signal writes its octet to the pipe of the channel, unless that is full. -/
theorem raise_armed (hroom : pending.length < capacity) :
    (armedWith start pending).raise signal = armedWith start (pending ++ [signal]) := by
  have hdisposition : (armedWith start pending).dispositions.of signal = .notify := by
    cases signal <;> rfl
  have hhandle : (armedWith start pending).handle signal =
      (armedWith start pending).write (pipeOf start) (octet signal) := rfl
  rw [Plumbing.raise, if_pos hdisposition, hhandle, Plumbing.write]
  simp only [armedWith, List.map_cons, List.length_map, hroom, and_self, if_true, List.map_append,
    List.map_nil]
  rw [map_of_notMem pipeOf_notMem]
  intro pipe hpipe
  rw [if_neg fun h => hpipe h.1]

theorem wait_armed :
    (armedWith start (first :: pending)).wait (channelOf start) =
      some (first, armedWith start pending) := by
  have hread : (armedWith start (first :: pending)).read (pipeOf start) =
      some (octet first, armedWith start pending) := by
    simp only [Plumbing.read, armedWith, List.lookup_cons_self, List.map_cons, if_true]
    rw [map_of_notMem pipeOf_notMem]
    intro pipe hpipe
    rw [if_neg hpipe]
  have hpipe : (channelOf start).pipe = pipeOf start := rfl
  rw [Plumbing.wait, hpipe, hread, Option.map_some]
  dsimp only
  rw [ofOctet_octet]

/-- Dropping the channel puts everything back. -/
theorem drop_armed (hstart : start.published = none) :
    (armedWith start pending).drop (channelOf start) = start := by
  have hrestored : (armedWith start pending).putBack (channelOf start).previous =
      { armedWith start pending with dispositions := start.dispositions } := rfl
  have hpipe : (channelOf start).pipe = pipeOf start := rfl
  have hunpublish : ({ armedWith start pending with
      dispositions := start.dispositions } : Plumbing).exchange (some (pipeOf start)) none =
        some { armedWith start pending with
          published := none, dispositions := start.dispositions } :=
    exchange_of_eq rfl
  rw [Plumbing.drop, hrestored, hpipe]
  dsimp only
  rw [hunpublish, Option.getD_some]
  dsimp only [Plumbing.closePipe, armedWith]
  rw [List.filter_cons_of_neg (by simp), filter_of_notMem pipeOf_notMem, ← hstart]

end

/-! ### Steps -/

namespace Installation

/-- What is pending in the newest channel. -/
def pending (p : Installation) : List Notification :=
  match p.channels with
  | [] => []
  | channel :: _ => ((p.plumbing.pipes.lookup channel.pipe).getD []).map ofOctet

/-- What may be done, and what may happen: a channel is dropped if there is one, signals arrive only
while a channel is armed and its pipe is not full, and nobody waits for nothing. -/
def Allows (p : Installation) : Step → Prop
  | .arm => True
  | .drop => p.channels ≠ []
  | .raise _ => p.channels ≠ [] ∧ p.pending.length < capacity
  | .wait => p.pending ≠ []

/-- Every step is allowed when its turn comes. -/
def Orderly : Installation → List Step → Prop
  | _, [] => True
  | p, step :: steps => p.Allows step ∧ (p.perform step).2.Orderly steps

instance decidableAllows (p : Installation) : (step : Step) → Decidable (p.Allows step)
  | .arm => inferInstanceAs (Decidable True)
  | .drop => inferInstanceAs (Decidable (p.channels ≠ []))
  | .raise _ => inferInstanceAs (Decidable (p.channels ≠ [] ∧ p.pending.length < capacity))
  | .wait => inferInstanceAs (Decidable (p.pending ≠ []))

instance decidableOrderly : (p : Installation) → (steps : List Step) → Decidable (p.Orderly steps)
  | _, [] => inferInstanceAs (Decidable True)
  | p, step :: steps =>
    have := decidableOrderly (p.perform step).2 steps
    inferInstanceAs (Decidable (p.Allows step ∧ (p.perform step).2.Orderly steps))

end Installation

theorem pending_shown (pending : List Notification) :
    (shown start (some pending)).pending = pending := by
  have hlookup : (armedWith start pending).pipes.lookup (pipeOf start) =
      some (pending.map octet) := by
    rw [armedWith, List.lookup_cons_self]
  have hpending : (shown start (some pending)).pending =
      (((armedWith start pending).pipes.lookup (pipeOf start)).getD []).map ofOctet := rfl
  rw [hpending, hlookup, Option.getD_some, map_ofOctet]

/-- What an allowed step does: its answer, and what is pending afterwards, if a channel is armed. -/
inductive Moves :
    Option (List Notification) → Step → Answer → Option (List Notification) → Prop where
  | arm : Moves none .arm .armed (some [])
  | refuse {pending : List Notification} :
      Moves (some pending) .arm (.refused Notifier.alreadyArmed) (some pending)
  | drop {pending : List Notification} : Moves (some pending) .drop .dropped none
  | raise {pending : List Notification} {signal : Notification} :
      Moves (some pending) (.raise signal) .raised (some (pending ++ [signal]))
  | wait {pending : List Notification} {first : Notification} :
      Moves (some (first :: pending)) .wait (.told first) (some pending)

section

variable {pending : List Notification}

theorem perform_arm_idle (hstart : start.published = none) :
    (shown start none).perform .arm = (.armed, shown start (some [])) := by
  simp only [Installation.perform, shown, arm_idle hstart]

theorem perform_arm_armed :
    (shown start (some pending)).perform .arm =
      (.refused Notifier.alreadyArmed, shown start (some pending)) := by
  simp only [Installation.perform, shown, arm_armed]

theorem perform_drop_armed (hstart : start.published = none) :
    (shown start (some pending)).perform .drop = (.dropped, shown start none) := by
  simp only [Installation.perform, shown, drop_armed hstart]

theorem perform_raise_armed {signal : Notification} (hroom : pending.length < capacity) :
    (shown start (some pending)).perform (.raise signal) =
      (.raised, shown start (some (pending ++ [signal]))) := by
  simp only [Installation.perform, shown, raise_armed hroom]

theorem perform_wait_armed {first : Notification} :
    (shown start (some (first :: pending))).perform .wait =
      (.told first, shown start (some pending)) := by
  simp only [Installation.perform, shown, wait_armed]

end

/-- Every allowed step is one of these moves. -/
theorem perform_shown (hstart : start.published = none) {state : Option (List Notification)}
    {step : Step} (h : (shown start state).Allows step) :
    ∃ answer state', (shown start state).perform step = (answer, shown start state') ∧
      Moves state step answer state' := by
  cases state with
  | none =>
    cases step with
    | arm => exact ⟨_, _, perform_arm_idle hstart, .arm⟩
    | drop => exact absurd rfl h
    | raise signal => exact absurd rfl h.1
    | wait => exact absurd rfl h
  | some pending =>
    cases step with
    | arm => exact ⟨_, _, perform_arm_armed, .refuse⟩
    | drop => exact ⟨_, _, perform_drop_armed hstart, .drop⟩
    | raise signal =>
      obtain ⟨-, hroom⟩ := h
      rw [pending_shown] at hroom
      exact ⟨_, _, perform_raise_armed hroom, .raise⟩
    | wait =>
      have hne : (shown start (some pending)).pending ≠ [] := h
      rw [pending_shown] at hne
      obtain ⟨first, rest, rfl⟩ := List.exists_cons_of_ne_nil hne
      exact ⟨_, _, perform_wait_armed, .wait⟩

/-! ### Runs -/

/-- What the steps of a run do. -/
inductive Runs : Option (List Notification) → List Step → List Answer →
    Option (List Notification) → Prop where
  | nil {state : Option (List Notification)} : Runs state [] [] state
  | cons {state mid final : Option (List Notification)} {step : Step} {steps : List Step}
      {answer : Answer} {answers : List Answer} :
      Moves state step answer mid → Runs mid steps answers final →
      Runs state (step :: steps) (answer :: answers) final

theorem performAll_shown (hstart : start.published = none) {steps : List Step}
    {state : Option (List Notification)} (h : (shown start state).Orderly steps) :
    ∃ answers final, (shown start state).performAll steps = (answers, shown start final) ∧
      Runs state steps answers final := by
  induction steps generalizing state with
  | nil => exact ⟨[], state, rfl, .nil⟩
  | cons step steps ih =>
    obtain ⟨hallowed, hsteps⟩ := h
    obtain ⟨answer, mid, hperform, hmoves⟩ := perform_shown hstart hallowed
    rw [hperform] at hsteps
    obtain ⟨answers, final, hperformAll, hruns⟩ := ih hsteps
    refine ⟨answer :: answers, final, ?_, .cons hmoves hruns⟩
    simp only [Installation.performAll, hperform, hperformAll]

namespace Installation

theorem orderly_append {before behind : List Step} {p : Installation} :
    p.Orderly (before ++ behind) ↔
      p.Orderly before ∧ (p.performAll before).2.Orderly behind := by
  induction before generalizing p with
  | nil => simp [Orderly, performAll]
  | cons step before ih =>
    rw [List.cons_append, Orderly, Orderly, ih, performAll, and_assoc]

end Installation

/-- The signals that arrive in a run. -/
def raised (steps : List Step) : List Notification :=
  steps.filterMap fun step => match step with
    | .raise signal => some signal
    | _ => none

/-- The notifications that are told in a run. -/
def told (answers : List Answer) : List Notification :=
  answers.filterMap fun answer => match answer with
    | .told notification => some notification
    | _ => none

/-- While a channel stays armed nothing is lost, doubled or reordered: what has been told and what
is pending is what was pending and what has been signalled. -/
theorem Runs.conserved {pending : List Notification} {steps : List Step} {answers : List Answer}
    {final : Option (List Notification)} (h : Runs (some pending) steps answers final)
    (hkept : .drop ∉ steps) :
    ∃ left, final = some left ∧ told answers ++ left = pending ++ raised steps ∧
      (told answers).length = steps.count .wait := by
  generalize hstate : some pending = state at h
  induction h generalizing pending with
  | nil => exact ⟨pending, hstate.symm, by simp [told, raised], rfl⟩
  | @cons state mid final step steps answer answers hmoves hruns ih =>
    obtain ⟨hstep, hsteps⟩ := not_or.mp (fun h => hkept (List.mem_cons.mpr h))
    cases hmoves with
    | arm => cases hstate
    | refuse =>
      cases hstate
      obtain ⟨left, hfinal, htold, hcount⟩ := ih hsteps rfl
      exact ⟨left, hfinal, htold, hcount⟩
    | drop => exact absurd rfl hstep
    | @raise _ signal =>
      cases hstate
      obtain ⟨left, hfinal, htold, hcount⟩ := ih hsteps rfl
      refine ⟨left, hfinal, ?_, hcount⟩
      rw [List.append_assoc] at htold
      exact htold
    | @wait pending first =>
      cases hstate
      obtain ⟨left, hfinal, htold, hcount⟩ := ih hsteps rfl
      refine ⟨left, hfinal, congrArg (first :: ·) htold, ?_⟩
      rw [List.count_cons_self, ← hcount]
      rfl

/-- **The slot is faithful.** A channel is armed exactly if none is, and a refusal changes nothing.
While a channel is armed, every wait is answered, and what the waits tell and what is pending is
what has been signalled since. Dropping it leaves the process as it was when it was armed: with the
dispositions of then, and nothing pending. -/
theorem faithful (hstart : start.published = none) (steps : List Step)
    (h : Installation.Orderly ⟨start, []⟩ steps) :
    (∀ before behind, steps = before ++ .arm :: behind →
      let now := (Installation.performAll before ⟨start, []⟩).2
      ((now.perform .arm).1 = .armed ↔ now.channels = []) ∧
      (now.channels ≠ [] → now.perform .arm = (.refused Notifier.alreadyArmed, now))) ∧
    ∀ before since behind, steps = before ++ .arm :: since ++ behind → .drop ∉ since →
      let was := (Installation.performAll before ⟨start, []⟩).2
      was.channels = [] →
      let done := (was.perform .arm).2.performAll since
      told done.1 ++ done.2.pending = raised since ∧
      (told done.1).length = since.count .wait ∧
      done.2.perform .drop = (.dropped, was) := by
  have hreached : ∀ before, Installation.Orderly ⟨start, []⟩ before → ∃ state,
      (Installation.performAll before ⟨start, []⟩).2 = shown start state := by
    intro before hbefore
    have hstarted : (shown start none).Orderly before := hbefore
    obtain ⟨answers, state, hrun, -⟩ := performAll_shown hstart hstarted
    exact ⟨state, congrArg Prod.snd hrun⟩
  refine ⟨?_, ?_⟩
  · rintro before behind rfl
    obtain ⟨hbefore, -⟩ := Installation.orderly_append.mp h
    obtain ⟨state, hnow⟩ := hreached before hbefore
    rw [hnow]
    cases state with
    | none => exact ⟨⟨fun _ => rfl, fun _ => congrArg Prod.fst (perform_arm_idle hstart)⟩,
        fun hno => absurd rfl hno⟩
    | some pending =>
      refine ⟨⟨fun harmed => ?_, nofun⟩, fun _ => perform_arm_armed⟩
      rw [perform_arm_armed] at harmed
      cases harmed
  · rintro before since behind rfl hkept
    obtain ⟨hsince, -⟩ := Installation.orderly_append.mp h
    obtain ⟨hbefore, -, hsince⟩ := Installation.orderly_append.mp hsince
    obtain ⟨state, hwas⟩ := hreached before hbefore
    rw [hwas] at hsince ⊢
    intro was hidle
    cases state with
    | some pending => cases hidle
    | none =>
      rw [perform_arm_idle hstart] at hsince
      have harmed : (shown start (some [])).Orderly since := hsince
      obtain ⟨answers, final, hrun, hruns⟩ := performAll_shown hstart harmed
      obtain ⟨left, rfl, htold, hcount⟩ := hruns.conserved hkept
      have hdone : (was.perform .arm).2.performAll since = (answers, shown start (some left)) := by
        rw [← hrun]
        exact congrArg (Installation.performAll since) (congrArg Prod.snd (perform_arm_idle hstart))
      intro done
      rw [show done = (answers, shown start (some left)) from hdone]
      refine ⟨?_, hcount, perform_drop_armed hstart⟩
      rw [pending_shown]
      exact htold

/-- A channel is dropped with something pending, and another one is armed. -/
def crossedSteps : List Step :=
  [.arm, .raise .childExited, .raise .ready, .arm, .wait, .drop, .arm, .raise .childExited, .wait]

theorem crossed_faithful :
    (({} : Plumbing).published = none ∧ Installation.Orderly ⟨{}, []⟩ crossedSteps) ∧
    let was := (Installation.performAll (crossedSteps.take 6) ⟨{}, []⟩).2
    told ((was.perform .arm).2.performAll [.raise .childExited, .wait]).1 = [.childExited] := by
  have horderly : Installation.Orderly ⟨{}, []⟩ crossedSteps := by decide
  obtain ⟨-, hsessions⟩ := faithful rfl crossedSteps horderly
  obtain ⟨htold, hcount, -⟩ :=
    hsessions (crossedSteps.take 6) [.raise .childExited, .wait] [] rfl (by decide) (by decide)
  exact ⟨⟨rfl, horderly⟩, (List.append_inj (htold.trans (List.append_nil _).symm) hcount).1⟩

/-! ### What is seen of it -/

/-- The notifier that shows a state. -/
def seen (start : Plumbing) : Option (List Notification) → Notifier
  | none => ⟨start.dispositions, none⟩
  | some pending => ⟨.notifying, some ⟨pending, start.dispositions⟩⟩

/-- Does a step with a notifier. -/
def performSeen (n : Notifier) : Step → Answer × Notifier
  | .arm =>
    match n.arm with
    | .ok n => (.armed, n)
    | .error message => (.refused message, n)
  | .raise signal => (.raised, n.raise signal)
  | .wait =>
    match n.wait with
    | some (notification, n) => (.told notification, n)
    | none => (if n.channel.isSome then .hung else .unarmed, n)
  | .drop => (if n.channel.isSome then .dropped else .unarmed, n.drop)

/-- Does one step after the other with a notifier. -/
def performAllSeen : List Step → Notifier → List Answer × Notifier
  | [], n => ([], n)
  | step :: steps, n =>
    let done := performSeen n step
    let rest := performAllSeen steps done.2
    (done.1 :: rest.1, rest.2)

theorem Moves.performSeen {state state' : Option (List Notification)} {step : Step}
    {answer : Answer} (h : Moves state step answer state') :
    performSeen (seen start state) step = (answer, seen start state') := by
  cases h with
  | @raise pending signal => cases signal <;> rfl
  | arm | refuse | drop | wait => rfl

theorem Runs.performAllSeen {state final : Option (List Notification)} {steps : List Step}
    {answers : List Answer} (h : Runs state steps answers final) :
    performAllSeen steps (seen start state) = (answers, seen start final) := by
  induction h with
  | nil => rfl
  | cons hmoves _ ih => simp only [SelfPipe.performAllSeen, hmoves.performSeen, ih]

/-- **The notifier is what is seen of the pipe**: it gives the same answers to all that may be done,
and shows the dispositions that are in force. -/
theorem performAll_seen (hstart : start.published = none) {steps : List Step}
    (h : Installation.Orderly ⟨start, []⟩ steps) :
    let done := Installation.performAll steps ⟨start, []⟩
    let shows := performAllSeen steps ⟨start.dispositions, none⟩
    done.1 = shows.1 ∧ done.2.plumbing.dispositions = shows.2.dispositions ∧
      (done.2.channels = [] ↔ shows.2.channel = none) := by
  have hstarted : (shown start none).Orderly steps := h
  obtain ⟨answers, final, hrun, hruns⟩ := performAll_shown hstart hstarted
  have hseen : performAllSeen steps ⟨start.dispositions, none⟩ = (answers, seen start final) :=
    hruns.performAllSeen
  intro done shows
  rw [show done = (answers, shown start final) from hrun,
    show shows = (answers, seen start final) from hseen]
  cases final with
  | none => exact ⟨rfl, rfl, fun _ => rfl, fun _ => rfl⟩
  | some pending => exact ⟨rfl, rfl, nofun, nofun⟩

end ImageScoring.SelfPipe
