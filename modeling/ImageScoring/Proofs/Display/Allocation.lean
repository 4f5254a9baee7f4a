import ImageScoring.Proofs.Display.Probing

/-!
# Allocating displays

While a display is looked for, servers are started one after the other, and nothing happens to any
but the last of them. When the search is over, each of them has ended, apart from the server of the
display that is taken (`Searched`, `allocate_searched`).
-/

namespace ImageScoring

/-- None of the servers runs. -/
def Stopped (servers : List Server) : Prop :=
  ∀ server ∈ servers, server.isRunning = false

theorem Stopped.append {servers servers' : List Server} (h : Stopped servers)
    (h' : Stopped servers') : Stopped (servers ++ servers') := by
  intro server hserver
  rcases List.mem_append.mp hserver with hserver | hserver
  · exact h server hserver
  · exact h' server hserver

@[simp] theorem Server.isRunning_killed (server : Server) : server.killed.isRunning = false := by
  simp [Server.killed, Server.isRunning]

namespace Displays

variable {before : List Server} {d d' : Displays}

/-! ### The search -/

/-- What a search for a display leaves. Servers that were tried in vain have ended; the server of a
display that is taken comes behind them. -/
inductive Searched (d d' : Displays) : Except Error (Option Lease) → Prop where
  | none {tried : List Server} : d'.servers = d.servers ++ tried → Stopped tried →
      Searched d d' (.ok none)
  | taken {tried : List Server} {server : Server} : d'.servers = d.servers ++ tried ++ [server] →
      Stopped tried →
      Searched d d' (.ok (some ⟨server.display, some (d.servers ++ tried).length⟩))
  | failed {tried : List Server} {cause : String} : d'.servers = d.servers ++ tried →
      Stopped tried → Searched d d' (.error (.display cause))
  | exhausted {tried : List Server} {count : Nat} : d'.servers = d.servers ++ tried →
      Stopped tried → Searched d d' (.error (.displayExhausted count))
  | hung : Searched d d' (.error .hung)

/-- A display that was tried in vain before the search. -/
theorem Searched.after {d₁ : Displays} {server : Server} {answer : Except Error (Option Lease)}
    (hservers : d₁.servers = d.servers ++ [server]) (hserver : server.isRunning = false)
    (h : Searched d₁ d' answer) : Searched d d' answer := by
  have hstopped : ∀ {tried : List Server}, Stopped tried → Stopped (server :: tried) := by
    intro tried htried other hother
    rcases List.mem_cons.mp hother with rfl | hother
    · exact hserver
    · exact htried other hother
  have hassoc : ∀ tried, d₁.servers ++ tried = d.servers ++ server :: tried := by
    simp [hservers]
  cases h with
  | none hd htried => exact .none (hd.trans (hassoc _)) (hstopped htried)
  | taken hd htried =>
    rw [hassoc] at hd ⊢
    exact .taken hd (hstopped htried)
  | failed hd htried => exact .failed (hd.trans (hassoc _)) (hstopped htried)
  | exhausted hd htried => exact .exhausted (hd.trans (hassoc _)) (hstopped htried)
  | hung => exact .hung

theorem tryFrom_searched (start : ServerStart) (server : Command) (display count : Nat)
    (previous : Dispositions) (pending : List Notification) (before : List Server) :
    Searched (searching previous pending before)
      (tryFrom start server display count (searching previous pending before)).2
      (tryFrom start server display count (searching previous pending before)).1 := by
  have hstopped : Stopped [] := by simp [Stopped]
  have hsame : (searching previous pending before).servers = before ++ [] :=
    (List.append_nil _).symm
  induction count generalizing display pending before with
  | zero => exact .none hsame hstopped
  | succ count ih =>
    let command := Template.command server display
    rcases hstart : command.started (start display command) with fault | groups
    · rw [tryFrom_of_fault hstart]
      exact .failed hsame hstopped
    · obtain ⟨result, s', left, hwatched, hprobe⟩ :=
        probe_watched groups { display, command } pending
      cases result with
      | hung =>
        rw [tryFrom_of_hung hstart (hprobe previous before)]
        exact .hung
      | ready =>
        have hdisplay : s'.display = display := hwatched.display_eq
        rw [tryFrom_of_ready hstart (hprobe previous before), ← hdisplay]
        have htaken : Searched (searching previous pending before)
            (searching previous left (before ++ [s']))
            (.ok (some ⟨s'.display, some (before ++ []).length⟩)) :=
          .taken (by simp [searching]) hstopped
        rwa [List.append_nil] at htaken
      | ended =>
        rw [tryFrom_of_ended hstart (hprobe previous before)]
        exact (ih (display + 1) left (before ++ [s']) (List.append_nil _).symm).after rfl
          (hwatched.not_isRunning rfl)

/-- **When the search is over, all that was started has ended**, apart from the server of the
display that is taken. -/
theorem allocate_searched (start : ServerStart) (server : Command) (candidates : Nat)
    (d : Displays) :
    Searched d (allocate start server candidates d).2
      ((allocate start server candidates d).1.map some) := by
  have hstopped : Stopped [] := by simp [Stopped]
  by_cases harm : d.notifier.channel = none
  · have hsearch := tryFrom_searched start server 0 candidates d.notifier.dispositions [] d.servers
    rw [allocate_eq harm]
    rcases hresult : tryFrom start server 0 candidates
      (searching d.notifier.dispositions [] d.servers) with ⟨answer, d'⟩
    rw [hresult] at hsearch
    dsimp only at hsearch ⊢
    cases hsearch with
    | none hd htried => exact .exhausted hd htried
    | taken hd htried => exact .taken hd htried
    | failed hd htried => exact .failed hd htried
    | exhausted hd htried => exact .exhausted hd htried
    | hung => exact .hung
  · rw [allocate_of_armed harm]
    exact .failed (List.append_nil _).symm hstopped

/-! ### Releasing -/

/-- A lease that was taken ends with all servers of the search stopped. -/
theorem release_taken {tried : List Server} {server : Server} {display : Nat}
    (h : d.servers = before ++ tried ++ [server]) :
    ((⟨display, some (before ++ tried).length⟩ : Lease).release d).2.servers =
      before ++ (tried ++ [server.killed]) := by
  rw [Lease.release]
  dsimp only
  rw [h, modify_newest, List.append_assoc]

end Displays

end ImageScoring
