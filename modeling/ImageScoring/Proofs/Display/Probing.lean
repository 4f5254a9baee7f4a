import ImageScoring.Display.Server

/-!
# Probing a display server

While a server is waited for, what happens and the looks at what is pending interleave. `Watched`
is that interleaving, taken by itself: one server, the notifications that are pending, and what
comes of them. Every probe is one (`probe_watched`), whatever servers were started before it.
-/

namespace ImageScoring

attribute [local instance (high)] Zero.ofOfNat0

/-- The notification that an event causes. -/
def ServerEvent.notification : ServerEvent → Notification
  | .ready => .ready
  | .ended _ | .otherEnded => .childExited

/-- The server after an event. -/
def Server.after (s : Server) : ServerEvent → Server
  | .ready => { s with signalled := true }
  | .ended ended => { s with ended := s.ended.or (some ended) }
  | .otherEnded => s

/-- A server is watched: events happen, and what is pending is looked at, oldest first, until the
server is taken to be ready or is found to have ended. The server and the notifications that are
left are told with what became of it. -/
inductive Watched : List ServerEvent → Server → List Notification → Probe → Server →
    List Notification → Prop where
  /-- Nothing is pending and nothing will happen. -/
  | hung {s : Server} : Watched [] s [] .hung s []
  | happens {event : ServerEvent} {events : List ServerEvent} {s s' : Server}
      {pending left : List Notification} {result : Probe} :
      Watched events (s.after event) (pending ++ [event.notification]) result s' left →
      Watched (event :: events) s pending result s' left
  | ready {events : List ServerEvent} {s : Server} {pending : List Notification} :
      Watched events s (.ready :: pending) .ready s pending
  | ended {events : List ServerEvent} {s : Server} {pending : List Notification}
      {ended : ProcessEnd} : s.ended = some ended →
      Watched events s (.childExited :: pending) .ended { s with collected := true } pending
  /-- It was another child process that ended. -/
  | again {events : List ServerEvent} {s s' : Server} {pending left : List Notification}
      {result : Probe} : s.ended = none → Watched events s pending result s' left →
      Watched events s (.childExited :: pending) result s' left

theorem Watched.append {happened rest : List ServerEvent} {s s' : Server}
    {pending left : List Notification} {result : Probe}
    (h : Watched rest (happened.foldl Server.after s)
      (pending ++ happened.map ServerEvent.notification) result s' left) :
    Watched (happened ++ rest) s pending result s' left := by
  induction happened generalizing s pending with
  | nil => simpa using h
  | cons event happened ih =>
    refine .happens (ih ?_)
    simpa using h

theorem Watched.display_eq {events : List ServerEvent} {s s' : Server}
    {pending left : List Notification} {result : Probe}
    (h : Watched events s pending result s' left) : s'.display = s.display := by
  induction h with
  | hung => rfl
  | @happens event _ _ _ _ _ _ _ ih => exact ih.trans (by cases event <;> rfl)
  | ready => rfl
  | ended _ => rfl
  | again _ _ ih => exact ih

theorem Watched.not_isRunning {events : List ServerEvent} {s s' : Server}
    {pending left : List Notification} {result : Probe}
    (h : Watched events s pending result s' left) (hresult : result = .ended) :
    s'.isRunning = false := by
  induction h with
  | hung => cases hresult
  | happens _ ih => exact ih hresult
  | ready => cases hresult
  | ended hended => simp [Server.isRunning, hended]
  | again _ _ ih => exact ih hresult

/-- The lease, were that many servers started before. -/
def Lease.behind (count : Nat) (l : Lease) : Lease :=
  { l with server := l.server.map (count + ·) }

theorem Lease.behind_behind (m n : Nat) (l : Lease) :
    (l.behind n).behind m = l.behind (m + n) := by
  simp [behind, Function.comp_def, Nat.add_assoc]

namespace Displays

/-- While a display is looked for: what is pending, and the dispositions to put back. -/
def searching (previous : Dispositions) (pending : List Notification) (servers : List Server) :
    Displays where
  notifier := ⟨.notifying, some ⟨pending, previous⟩⟩
  servers := servers

section

variable {previous : Dispositions} {pending : List Notification} {before : List Server}
  {s : Server}

theorem modify_newest (s : Server) (f : Server → Server) :
    (before ++ [s]).modify before.length f = before ++ [f s] := by
  induction before with
  | nil => rfl
  | cons first before ih => simpa using ih

theorem happen_searching (event : ServerEvent) :
    (searching previous pending (before ++ [s])).happen before.length event =
      searching previous (pending ++ [event.notification]) (before ++ [s.after event]) := by
  cases event with
  | ready => simp [happen, searching, modify_newest, Notifier.raise, Dispositions.of,
      Dispositions.notifying, Server.after, ServerEvent.notification]
  | ended ended => simp [happen, searching, modify_newest, Notifier.raise, Dispositions.of,
      Dispositions.notifying, Server.after, ServerEvent.notification]
  | otherEnded => simp [happen, searching, Notifier.raise, Dispositions.of,
      Dispositions.notifying, Server.after, ServerEvent.notification]

theorem foldl_happen_searching (events : List ServerEvent) :
    events.foldl (happen before.length) (searching previous pending (before ++ [s])) =
      searching previous (pending ++ events.map ServerEvent.notification)
        (before ++ [events.foldl Server.after s]) := by
  induction events generalizing pending s with
  | nil => simp
  | cons event events ih => simp [happen_searching, ih]

end

/-- Awaiting a notification: some of the events happen, and the oldest notification comes; else
nothing is pending and nothing happens. -/
theorem await_searching (groups : List (List ServerEvent)) (s : Server)
    (pending : List Notification) :
    (pending = [] ∧ groups.flatten = [] ∧ ∀ previous before,
      (searching previous pending (before ++ [s])).await before.length groups =
        (none, searching previous [] (before ++ [s]))) ∨
    ∃ happened rest first left, groups.flatten = happened ++ rest.flatten ∧
      pending ++ happened.map ServerEvent.notification = first :: left ∧ ∀ previous before,
        (searching previous pending (before ++ [s])).await before.length groups =
          (some (first, rest), searching previous left
            (before ++ [happened.foldl Server.after s])) := by
  induction groups generalizing s pending with
  | nil =>
    cases pending with
    | nil => exact .inl ⟨rfl, rfl, fun _ _ => rfl⟩
    | cons first left => exact .inr ⟨[], [], first, left, rfl, by simp, fun _ _ => rfl⟩
  | cons group groups ih =>
    rcases hpending : pending ++ group.map ServerEvent.notification with _ | ⟨first, left⟩
    · obtain ⟨rfl, hgroup⟩ := List.append_eq_nil_iff.mp hpending
      obtain rfl := List.map_eq_nil_iff.mp hgroup
      rw [List.flatten_cons, List.nil_append]
      refine (ih s []).imp ?_ ?_
      · rintro ⟨-, hflat, hawait⟩
        exact ⟨rfl, hflat, fun previous before => hawait previous before⟩
      · rintro ⟨happened, rest, first, left, hflat, hleft, hawait⟩
        exact ⟨happened, rest, first, left, hflat, hleft,
          fun previous before => hawait previous before⟩
    · refine .inr ⟨group, groups, first, left, rfl, hpending, fun previous before => ?_⟩
      rw [await, foldl_happen_searching, hpending]
      rfl

/-- **A probe is a watch**, and the servers before make no difference to it. -/
theorem probeWithin_watched (fuel : Nat) (groups : List (List ServerEvent)) (s : Server)
    (pending : List Notification) (hfuel : pending.length + groups.flatten.length < fuel) :
    ∃ result s' left, Watched groups.flatten s pending result s' left ∧ ∀ previous before,
      (searching previous pending (before ++ [s])).probeWithin before.length fuel groups =
        (result, searching previous left (before ++ [s'])) := by
  induction fuel generalizing groups s pending with
  | zero => exact absurd hfuel (Nat.not_lt_zero _)
  | succ fuel ih =>
    obtain ⟨rfl, hflat, hawait⟩ | ⟨happened, rest, first, left, hflat, hleft, hawait⟩ :=
      await_searching groups s pending
    · refine ⟨.hung, s, [], hflat ▸ .hung, fun previous before => ?_⟩
      rw [probeWithin, hawait]
    · rw [hflat]
      cases first with
      | ready =>
        refine ⟨.ready, _, left, .append (by rw [hleft]; exact .ready), fun previous before => ?_⟩
        rw [probeWithin, hawait]
      | childExited =>
        rcases hended : (happened.foldl Server.after s).ended with _ | ended
        · -- one notification less is to come: it was not about this server
          have hfuel' : left.length + rest.flatten.length < fuel := by
            have hlength := congrArg List.length hleft
            simp only [List.length_append, List.length_map, List.length_cons] at hlength
            rw [hflat, List.length_append] at hfuel
            omega
          obtain ⟨result, s', left', hwatched, hprobe⟩ := ih rest _ left hfuel'
          refine ⟨result, s', left', .append (by rw [hleft]; exact .again hended hwatched),
            fun previous before => ?_⟩
          rw [probeWithin, hawait]
          simp only [searching, List.getElem?_concat_length, Option.bind_some, hended]
          exact hprobe previous before
        · refine ⟨.ended, _, left, .append (by rw [hleft]; exact .ended hended),
            fun previous before => ?_⟩
          rw [probeWithin, hawait]
          simp only [searching, List.getElem?_concat_length, Option.bind_some, hended,
            modify_newest]

theorem probe_watched (groups : List (List ServerEvent)) (s : Server)
    (pending : List Notification) :
    ∃ result s' left, Watched groups.flatten s pending result s' left ∧ ∀ previous before,
      (searching previous pending (before ++ [s])).probe before.length groups =
        (result, searching previous left (before ++ [s'])) := by
  obtain ⟨result, s', left, hwatched, hprobe⟩ :=
    probeWithin_watched ((groups.map List.length).sum + pending.length + 1) groups s pending
      (by rw [List.length_flatten]; omega)
  exact ⟨result, s', left, hwatched, hprobe⟩

/-! ### The search -/

variable {start : ServerStart} {server : Command} {display count candidates : Nat}
  {previous : Dispositions} {pending left : List Notification} {before : List Server}

theorem tryFrom_of_fault {d : Displays} {fault : FileFault}
    (hstart : (Template.command server display).started
      (start display (Template.command server display)) = .error fault) :
    tryFrom start server display (count + 1) d =
      (.error (launchError (Template.command server display) display fault), d) := by
  rw [tryFrom, hstart]

section

variable {groups : List (List ServerEvent)} {s' : Server}

/-- The display of a server that is ready is taken. -/
theorem tryFrom_of_ready
    (hstart : (Template.command server display).started
      (start display (Template.command server display)) = .ok groups)
    (hprobe : (searching previous pending
        (before ++ [{ display, command := Template.command server display }])).probe
          before.length groups = (.ready, searching previous left (before ++ [s']))) :
    tryFrom start server display (count + 1) (searching previous pending before) =
      (.ok (some ⟨display, some before.length⟩), searching previous left (before ++ [s'])) := by
  rw [searching] at hprobe
  simp only [tryFrom, hstart, searching, hprobe]

theorem tryFrom_of_hung
    (hstart : (Template.command server display).started
      (start display (Template.command server display)) = .ok groups)
    (hprobe : (searching previous pending
        (before ++ [{ display, command := Template.command server display }])).probe
          before.length groups = (.hung, searching previous left (before ++ [s']))) :
    tryFrom start server display (count + 1) (searching previous pending before) =
      (.error .hung, searching previous left (before ++ [s'])) := by
  rw [searching] at hprobe
  simp only [tryFrom, hstart, searching, hprobe]

/-- The search goes on behind a server that has ended. -/
theorem tryFrom_of_ended
    (hstart : (Template.command server display).started
      (start display (Template.command server display)) = .ok groups)
    (hprobe : (searching previous pending
        (before ++ [{ display, command := Template.command server display }])).probe
          before.length groups = (.ended, searching previous left (before ++ [s']))) :
    tryFrom start server display (count + 1) (searching previous pending before) =
      tryFrom start server (display + 1) count
        (searching previous left (before ++ [s'])) := by
  rw [searching] at hprobe
  simp only [tryFrom, hstart, searching, hprobe]

end

/-- **A search makes nothing of the servers before it**, nor of the dispositions to put back. -/
theorem tryFrom_framed (start : ServerStart) (server : Command) (display count : Nat)
    (pending : List Notification) :
    ∃ (answer : Except Error (Option Lease)) (tried : List Server) (left : List Notification),
      ∀ previous before,
        tryFrom start server display count (searching previous pending before) =
          (answer.map (Option.map (Lease.behind before.length)),
            searching previous left (before ++ tried)) := by
  induction count generalizing display pending with
  | zero => exact ⟨.ok none, [], pending, fun _ _ => by rw [List.append_nil]; rfl⟩
  | succ count ih =>
    let command := Template.command server display
    rcases hstart : command.started (start display command) with fault | groups
    · refine ⟨.error (launchError command display fault), [], pending, fun previous before => ?_⟩
      rw [tryFrom_of_fault hstart, List.append_nil]
      rfl
    · obtain ⟨result, s', left, -, hprobe⟩ := probe_watched groups { display, command } pending
      cases result with
      | ready =>
        exact ⟨.ok (some ⟨display, some 0⟩), [s'], left, fun previous before =>
          tryFrom_of_ready hstart (hprobe previous before)⟩
      | hung =>
        exact ⟨.error .hung, [s'], left, fun previous before =>
          tryFrom_of_hung hstart (hprobe previous before)⟩
      | ended =>
        obtain ⟨answer, tried, left', hsearch⟩ := ih (display + 1) left
        refine ⟨answer.map (Option.map (Lease.behind 1)), s' :: tried, left',
          fun previous before => ?_⟩
        rw [tryFrom_of_ended hstart (hprobe previous before), hsearch]
        rcases answer with e | _ | lease <;>
          simp [Except.map, Lease.behind_behind]

theorem allocate_of_armed {d : Displays} (h : d.notifier.channel ≠ none) :
    allocate start server candidates d =
      (.error (.display ("arming notification channel: " ++ Notifier.alreadyArmed)), d) := by
  rw [allocate, Notifier.arm]
  split
  · next harm =>
    split at harm
    · cases harm
      rfl
    · cases harm
  · next harm =>
    split at harm
    · cases harm
    · next hnone => exact absurd hnone h

/-- What is found for an allocation by a search of its own. -/
theorem allocate_eq {d : Displays} (h : d.notifier.channel = none) :
    allocate start server candidates d =
      ((tryFrom start server 0 candidates (searching d.notifier.dispositions [] d.servers)).1.bind
          fun found => found.elim (.error (.displayExhausted candidates)) .ok,
        { d with
          servers := (tryFrom start server 0 candidates
            (searching d.notifier.dispositions [] d.servers)).2.servers }) := by
  obtain ⟨⟨dispositions, channel⟩, servers⟩ := d
  obtain rfl : channel = none := h
  obtain ⟨answer, tried, left, hsearch⟩ := tryFrom_framed start server 0 candidates []
  have hsearch := hsearch dispositions servers
  rw [hsearch]
  rw [searching] at hsearch
  simp only [allocate, Notifier.arm, hsearch]
  rcases answer with e | _ | lease <;> rfl

/-- **An allocation leaves the notifier as it was**, whatever comes of it, and makes nothing of the
servers before it: whoever comes next is answered likewise. -/
theorem allocate_framed (start : ServerStart) (server : Command) (candidates : Nat) :
    ∃ (answer : Except Error Lease) (tried : List Server), ∀ d, d.notifier.channel = none →
      allocate start server candidates d =
        (answer.map (Lease.behind d.servers.length), { d with servers := d.servers ++ tried }) := by
  obtain ⟨answer, tried, left, hsearch⟩ := tryFrom_framed start server 0 candidates []
  refine ⟨answer.bind fun found => found.elim (.error (.displayExhausted candidates)) .ok, tried,
    fun d hnone => ?_⟩
  rw [allocate_eq hnone, hsearch]
  rcases answer with e | _ | lease <;> rfl

end Displays

end ImageScoring
