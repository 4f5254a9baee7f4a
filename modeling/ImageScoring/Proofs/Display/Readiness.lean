import ImageScoring.Proofs.Display.Probing

/-!
# Whose readiness is credited

A notification of readiness does not tell which server has signalled, and it stays pending while
one server after the other is tried. A display is taken on its own server's readiness if none of the
servers tried before has signalled (`ready_own_iff_none_before`). Else it is taken on the readiness
of one of these, whatever its own server does: it may have ended (`stray_readiness_credited`).
-/

namespace ImageScoring

namespace Watched

variable {events : List ServerEvent} {s s' : Server} {pending left : List Notification}
  {result : Probe}

/-- Whoever signals readiness, a notification of that stays pending until it is credited. The
invariant of a watch: readiness is pending if and only if somebody has signalled it, before or
now. -/
theorem credit {earlier : Prop} (h : Watched events s pending result s' left)
    (hpending : .ready ∈ pending ↔ earlier ∨ s.signalled = true) :
    (result = .ready → earlier ∨ s'.signalled = true) ∧
      (result = .ended → (.ready ∈ left ↔ earlier ∨ s'.signalled = true)) := by
  induction h with
  | hung => exact ⟨by rintro ⟨⟩, by rintro ⟨⟩⟩
  | @happens event _ _ _ _ _ _ _ ih =>
    refine ih ?_
    cases event <;> simp [hpending, Server.after, ServerEvent.notification]
  | ready => exact ⟨fun _ => hpending.mp (List.mem_cons_self ..), by rintro ⟨⟩⟩
  | ended _ => exact ⟨by rintro ⟨⟩, fun _ => by simpa using hpending⟩
  | again _ _ ih => exact ih (by simpa using hpending)

/-- Where nothing happens and the server has not ended, all depends on what is pending. -/
theorem quiet (h : Watched [] s pending result s' left) (hs : s.ended = none) :
    (.ready ∈ pending → result = .ready) ∧ (.ready ∉ pending → result = .hung) := by
  generalize hevents : ([] : List ServerEvent) = events at h
  induction h with
  | hung => exact ⟨by rintro ⟨⟩, fun _ => rfl⟩
  | happens _ _ => cases hevents
  | ready => exact ⟨fun _ => rfl, fun hno => absurd (List.mem_cons_self ..) hno⟩
  | ended hended => simp [hs] at hended
  | again _ _ ih => simpa using ih hs hevents

end Watched

namespace Displays

variable {start : ServerStart} {server : Command} {display count candidates : Nat}
  {previous : Dispositions} {pending : List Notification} {base passed : List Server}
  {lease : Lease} {d d' : Displays}

/-- The same servers, but the one of a display does nothing. -/
def mute (display : Nat) (start : ServerStart) : ServerStart := fun n command =>
  if n = display then (start n command).map fun _ => [] else start n command

theorem started_mute_self {command : Command} {groups : List (List ServerEvent)}
    (h : command.started (start display command) = .ok groups) :
    command.started (mute display start display command) = .ok [] := by
  rw [Command.started] at h ⊢
  split at h
  · cases h
  · next hzero => rw [if_neg hzero, mute, if_pos rfl, h, Except.map]

theorem mute_of_ne {n : Nat} {command : Command} (h : n ≠ display) :
    mute display start n command = start n command :=
  if_neg h

/-- What a search that began with some servers passed over credits. -/
theorem tryFrom_credit
    (hpending : .ready ∈ pending ↔ ∃ s ∈ passed, s.signalled = true)
    (h : tryFrom start server display count (searching previous pending (base ++ passed)) =
      (.ok (some lease), d')) :
    ∃ more taken left,
      d' = searching previous left (base ++ (passed ++ more) ++ [taken]) ∧
      lease = ⟨display + more.length, some (base ++ (passed ++ more)).length⟩ ∧
      taken.display = lease.display ∧
      ((∀ s ∈ passed ++ more, s.signalled = false) → taken.signalled = true ∧
        (tryFrom (mute lease.display start) server display count
          (searching previous pending (base ++ passed))).1 = .error .hung) ∧
      ((∃ s ∈ passed ++ more, s.signalled = true) →
        (tryFrom (mute lease.display start) server display count
          (searching previous pending (base ++ passed))).1 = .ok (some lease)) := by
  induction count generalizing display pending passed with
  | zero => cases h
  | succ count ih =>
    let command := Template.command server display
    rcases hstart : command.started (start display command) with fault | groups
    · rw [tryFrom_of_fault hstart] at h
      cases h
    · obtain ⟨result, s', left, hwatched, hprobe⟩ :=
        probe_watched groups { display, command } pending
      obtain ⟨hready, hended⟩ := hwatched.credit (by simpa using hpending)
      cases result with
      | hung =>
        rw [tryFrom_of_hung hstart (hprobe previous (base ++ passed))] at h
        cases h
      | ready =>
        rw [tryFrom_of_ready hstart (hprobe previous (base ++ passed))] at h
        cases h
        -- without the server's own events, readiness is all that can be pending
        obtain ⟨result, s₂, left₂, hwatched₂, hprobe₂⟩ :=
          probe_watched [] { display, command } pending
        obtain ⟨hstray, hnone⟩ := hwatched₂.quiet rfl
        refine ⟨[], s', left, by simp, by simp, hwatched.display_eq, fun hno => ?_, fun hsome => ?_⟩
        · have hno' : ¬∃ s ∈ passed, s.signalled = true := by simpa using hno
          obtain rfl := hnone (mt hpending.mp hno')
          rw [tryFrom_of_hung (started_mute_self hstart) (hprobe₂ previous (base ++ passed))]
          exact ⟨(hready rfl).resolve_left hno', rfl⟩
        · obtain rfl := hstray (hpending.mpr (by simpa using hsome))
          rw [tryFrom_of_ready (started_mute_self hstart) (hprobe₂ previous (base ++ passed))]
      | ended =>
        -- the display that is taken comes later: muting its server changes nothing up to here
        rw [tryFrom_of_ended hstart (hprobe previous (base ++ passed)), List.append_assoc] at h
        obtain ⟨more, taken, left', hd', hlease, htaken, hown, hstray⟩ :=
          ih (by simpa using hended rfl) h
        have hne : display ≠ lease.display := by
          rw [hlease]
          dsimp only
          omega
        rw [tryFrom_of_ended (by rwa [mute_of_ne hne]) (hprobe previous (base ++ passed)),
          List.append_assoc]
        simp only [List.append_assoc, List.singleton_append] at hd' hlease hown hstray ⊢
        refine ⟨s' :: more, taken, left', hd', ?_, htaken, hown, hstray⟩
        rw [hlease, List.length_cons, Nat.add_right_comm, Nat.add_assoc]

/-- **A display is taken on its own server's readiness if no server before it has signalled any.**
Then that server has signalled, and were it to do nothing, the allocation would wait for ever. If
one of the servers before has, the display is taken even if its own server does nothing. -/
theorem ready_own_iff_none_before
    (h : allocate start server candidates d = (.ok lease, d')) :
    ∃ passed taken, d'.servers = d.servers ++ passed ++ [taken] ∧
      lease = ⟨passed.length, some (d.servers ++ passed).length⟩ ∧ taken.display = lease.display ∧
      ((∀ s ∈ passed, s.signalled = false) → taken.signalled = true ∧
        (allocate (mute lease.display start) server candidates d).1 = .error .hung) ∧
      ((∃ s ∈ passed, s.signalled = true) →
        (allocate (mute lease.display start) server candidates d).1 = .ok lease) := by
  have harm : d.notifier.channel = none := Decidable.byContradiction fun harmed => by
    rw [allocate_of_armed harmed] at h
    cases h
  rw [allocate_eq harm] at h ⊢
  rcases hsearch : tryFrom start server 0 candidates
    (searching d.notifier.dispositions [] d.servers) with ⟨e | _ | found, d₁⟩
  · rw [hsearch] at h
    cases h
  · rw [hsearch] at h
    cases h
  · rw [hsearch] at h
    cases h
    rw [← List.append_nil d.servers] at hsearch
    obtain ⟨passed, taken, left, rfl, hlease, htaken, hown, hstray⟩ :=
      tryFrom_credit (by simp) hsearch
    simp only [List.nil_append, List.append_nil, Nat.zero_add] at hlease hown hstray
    refine ⟨passed, taken, rfl, hlease, htaken, fun hno => ⟨(hown hno).1, ?_⟩, fun hsome => ?_⟩
    · rw [(hown hno).2]
      rfl
    · rw [hstray hsome]
      rfl

/-- The server of display zero ends, and display one is bound while another process ends. -/
def busyStart : ServerStart := fun n _ =>
  .ok (if n = 0 then [[.ended (.exited 1)]] else [[.otherEnded], [.ready]])

/-- Display one is taken on the readiness of its own server. -/
theorem ready_own_busy :
    ∃ passed taken, (allocate busyStart ⟨"Xvfb", []⟩ 2 {}).2.servers = passed ++ [taken] ∧
      taken.display = 1 ∧ taken.signalled = true ∧
      (allocate (mute 1 busyStart) ⟨"Xvfb", []⟩ 2 {}).1 = .error .hung := by
  have hallocated : allocate busyStart ⟨"Xvfb", []⟩ 2 {} =
      (.ok ⟨1, some 1⟩, (allocate busyStart ⟨"Xvfb", []⟩ 2 {}).2) := rfl
  obtain ⟨passed, taken, hservers, hlease, htaken, hown, -⟩ := ready_own_iff_none_before hallocated
  have hservers : (allocate busyStart ⟨"Xvfb", []⟩ 2 {}).2.servers = passed ++ [taken] := hservers
  have hpassed : passed = (allocate busyStart ⟨"Xvfb", []⟩ 2 {}).2.servers.take 1 := by
    have hlength : 1 = passed.length := congrArg Lease.display hlease
    rw [hservers, hlength, List.take_left]
  have hnone : ∀ s ∈ passed, s.signalled = false := by
    rw [hpassed]
    decide +kernel
  exact ⟨passed, taken, hservers, htaken, hown hnone⟩

/-- The server of display zero ends when it has signalled, and its end is noticed first. The server
of display one ends. -/
def strayStart : ServerStart := fun n _ =>
  .ok (if n = 0 then [[.ended (.exited 1), .ready]] else [[.ended (.exited 1)]])

/-- Display one is taken although its server never signals and has ended. -/
theorem stray_readiness_credited :
    (allocate strayStart ⟨"Xvfb", []⟩ 2 {}).1 = .ok ⟨1, some 1⟩ ∧
      ∃ taken, (allocate strayStart ⟨"Xvfb", []⟩ 2 {}).2.servers[1]? = some taken ∧
        taken.display = 1 ∧ taken.signalled = false ∧ taken.ended = some (.exited 1) := by
  refine ⟨rfl, ⟨1, ⟨"Xvfb", []⟩, true, false, some (.exited 1), false⟩, ?_⟩
  decide +kernel

end Displays

end ImageScoring
