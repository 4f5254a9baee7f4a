import ImageScoring.Proofs.Filter.Teardown
import ImageScoring.Proofs.Number.Value
import ImageScoring.Proofs.Worker.Delivery

/-!
# What an evaluation writes

An evaluation that gets a reply writes an attribute to the object for each one that the reply hands
over and that has a name (`Writes`), and the result behind them. So whatever a worker calls its
attributes, the result is what the object has in the end (`evaluation_writes`).
-/

namespace ImageScoring

open Reply

variable {σ ω : Type}

/-- The attributes that a framed reply hands over, in order. -/
def Reader.delivered (r : Reader) : List Attribute :=
  (Session.run (accepting collect) {} r []).handed

namespace Filter

variable {programs : Programs σ} {f : Filter σ} {s : System} {store : ObjectStore ω}
  {object object' : ω} {r : Reader}

/-- `Writes attributes writes`: these are the names and values that are written for attributes. One
whose key is no text is left out, and a zero octet stands behind every value. -/
inductive Writes : List Attribute → List (String × Bytes) → Prop where
  | nil : Writes [] []
  | named {a : Attribute} {name : String} {attributes : List Attribute}
      {writes : List (String × Bytes)} : a.key = Utf8.ofText name → Writes attributes writes →
      Writes (a :: attributes) ((name, a.value ++ [0]) :: writes)
  | unnamed {a : Attribute} {attributes : List Attribute} {writes : List (String × Bytes)} :
      (∀ name, a.key ≠ Utf8.ofText name) → Writes attributes writes →
      Writes (a :: attributes) writes

/-- The object after it was written to, time and again. -/
def writeAll (store : ObjectStore ω) (object : ω) (writes : List (String × Bytes)) : ω :=
  writes.foldl (fun object write => (store.write write.1 write.2 object).1) object

/-! ### Attributes -/

theorem keep_of_named {a : Attribute} {name : String} (h : a.key = Utf8.ofText name)
    (object : ω) : keep store object a = store.write name (a.value ++ [0]) object := by
  rw [keep, Utf8.toText?_eq_ok_iff.mpr h]

theorem keep_of_unnamed {a : Attribute} (h : ∀ name, a.key ≠ Utf8.ofText name) (object : ω) :
    keep store object a = (object, .ok ()) := by
  rcases htext : Utf8.toText? a.key with fault | name
  · rw [keep, htext]
  · exact absurd (Utf8.toText?_eq_ok_iff.mp htext) (h name)

theorem exists_writes (attributes : List Attribute) : ∃ writes, Writes attributes writes := by
  induction attributes with
  | nil => exact ⟨[], .nil⟩
  | cons a attributes ih =>
    obtain ⟨writes, hwrites⟩ := ih
    by_cases hname : ∃ name, a.key = Utf8.ofText name
    · obtain ⟨name, hname⟩ := hname
      exact ⟨_, .named hname hwrites⟩
    · exact ⟨writes, .unnamed (not_exists.mp hname) hwrites⟩

/-- Keeping attributes is writing what is written for them. -/
theorem Writes.keep {attributes : List Attribute} {writes : List (String × Bytes)}
    (h : Writes attributes writes) (object : ω) :
    attributes.foldl (fun object a => (keep store object a).1) object =
      writeAll store object writes := by
  induction h generalizing object with
  | nil => rfl
  | named hname _ ih =>
    rw [List.foldl_cons, keep_of_named hname]
    exact ih _
  | unnamed hname _ ih =>
    rw [List.foldl_cons, keep_of_unnamed hname]
    exact ih _

/-! ### Evaluations that get a reply -/

/-- A session whose attributes are kept ends as it would with any sink that takes them. -/
theorem run_keep (hwrite : ∀ name value object, (store.write name value object).2 = .ok ())
    {outcome : Outcome}
    (houtcome : (Session.run (accepting collect) {} r []).answer = .ok outcome) (object : ω) :
    (Session.run (keep store) {} r object).answer = .ok outcome ∧
      (Session.run (keep store) {} r object).store =
        r.delivered.foldl (fun object a => (keep store object a).1) object := by
  have hoffer := offer_accepting (fun object a => (keep store object a).1) object r.delivered
  rw [← keep_eq_accepting hwrite] at hoffer
  have hrun := Session.run_offered (keep store) {} r object
  rw [Run.offered_of_taken _ hoffer, houtcome, Prod.mk.injEq] at hrun
  exact ⟨hrun.2, hrun.1⟩

theorem evaluate_of_replied (hform : f.replyForm = .framed) (hpolicy : f.framingPolicy = .isolate)
    (hwrite : ∀ name value object, (store.write name value object).2 = .ok ())
    (hreply : f.reply? programs store object = some (object', r)) {outcome : Outcome}
    (houtcome : (Session.run (accepting collect) {} r []).answer = .ok outcome)
    {writes : List (String × Bytes)} (hwrites : Writes r.delivered writes) (s : System) :
    (f.evaluate programs store object s).answer = .ok (score outcome.value) ∧
      (f.evaluate programs store object s).object =
        writeAll store object' (writes ++ [(resultAttribute, resultOctets outcome.value)]) := by
  obtain ⟨image, w, hread, hsend, rfl⟩ := sent_of_reply? hreply
  obtain ⟨hanswer, hobject⟩ := run_keep hwrite houtcome object'
  have hreplied := Worker.read_of_outcome (Worker.tornDown_of_send hsend) rfl hanswer
  rw [← hform] at hreplied
  rw [evaluate_of_read hread hsend hreplied, afterReply_of_isolate (by exact hpolicy)]
  dsimp only
  rw [hwrite, hobject, hwrites.keep, writeAll, writeAll, List.foldl_append]
  exact ⟨rfl, rfl⟩

/-! ### The result -/

theorem value_sentinel : sentinel.value = -1 := by
  have hunits : sentinel.signedUnits = -(Binary64.one : Int) := by decide +kernel
  have hone : (Binary64.one : ℚ) ≠ 0 := Nat.cast_ne_zero.mpr Binary64.one_pos.ne'
  rw [Binary64.value, hunits, Int.cast_neg, Int.cast_natCast, neg_div, div_self hone]

/-- What is written last to an attribute is what it holds. -/
theorem read_writeAll {name : String} {value : Bytes}
    (hread : ∀ object, (store.read name (store.write name value object).1).2 = .ok (some value))
    (object : ω) (writes : List (String × Bytes)) :
    (store.read name (writeAll store object (writes ++ [(name, value)]))).2 = .ok (some value) := by
  rw [writeAll, List.foldl_append]
  exact hread _

/-- **What an evaluation writes and gives.** A filter that reads framed replies and keeps its worker
evaluates an object whose store accepts what is written. Its request is answered with a reply that
ends with an outcome. What is written is, in order, every attribute that the reply hands over and
that has a name, and then the outcome's value, in eight octets: so, whatever the worker calls its
attributes, this is the result that the object has. The value of a malformed reply is -1. The score
is the value, cut off toward zero and kept within 32 bits. -/
theorem evaluation_writes (hform : f.replyForm = .framed) (hpolicy : f.framingPolicy = .isolate)
    (hwrite : ∀ name value object, (store.write name value object).2 = .ok ())
    (hreply : f.reply? programs store object = some (object', r)) {outcome : Outcome}
    (houtcome : (Session.run (accepting collect) {} r []).answer = .ok outcome) (s : System) :
    let done := f.evaluate programs store object s
    let octets := resultOctets outcome.value
    (∃ writes, Writes r.delivered writes ∧
      done.object = writeAll store object' (writes ++ [(resultAttribute, octets)])) ∧
    (octets.length = 8 ∧ Bytes.ofLittleEndian octets = outcome.value.bits) ∧
    (∀ error, outcome = .framing error → outcome.value.value = -1 ∧ done.answer = .ok (-1)) ∧
    ((∀ value object, (store.read resultAttribute
        (store.write resultAttribute value object).1).2 = .ok (some value)) →
      (store.read resultAttribute done.object).2 = .ok (some octets)) ∧
    ∃ n, done.answer = .ok n ∧ Binary64.Truncated leastScore greatestScore outcome.value n := by
  obtain ⟨writes, hwrites⟩ := exists_writes r.delivered
  obtain ⟨hanswer, hobject⟩ :=
    evaluate_of_replied hform hpolicy hwrite hreply houtcome hwrites s
  refine ⟨⟨writes, hwrites, hobject⟩, ⟨Bytes.length_littleEndian 8 _, ?_⟩, ?_, ?_, ?_⟩
  · exact Bytes.ofLittleEndian_littleEndian (Binary64.bits_lt outcome.value)
  · rintro error rfl
    exact ⟨value_sentinel, hanswer.trans (congrArg Except.ok score_sentinel)⟩
  · intro hread
    rw [hobject]
    exact read_writeAll (hread _) object' writes
  · exact ⟨_, hanswer, Binary64.truncated _ _ _⟩

/-! ### A key that is in the way -/

/-- A store that keeps all that is written to an object, and starts with empty attributes. -/
def keepingStore : ObjectStore (List (String × Bytes)) where
  read name object :=
    (object, .ok (some (((object.reverse.find? (·.1 == name)).map (·.2)).getD [])))
  write name value object := (object ++ [(name, value)], .ok ())

/-- A reply with an attribute that has no name, and one with the name of the result. -/
def collidingReply : WellFormed :=
  Content.wellFormed {
    attributes := [⟨[0xFF], ascii "u"⟩, ⟨Utf8.ofText resultAttribute, ascii "v"⟩]
    payload := ascii "-4.9"
    keys_fit := by decide +kernel
    values_fit := by decide
    payload_fits := by decide }

def collidingPrograms : Programs Nat :=
  { ascendingPrograms with worker := Program.replying fun _ => collidingReply }

/-- Nothing is written for the first attribute, and the result stands behind the second. -/
theorem colliding_key_overwritten :
    ∃ r outcome, ascendingFilter.reply? collidingPrograms keepingStore [] = some ([], r) ∧
      (Session.run (accepting collect) {} r []).answer = .ok outcome ∧
      (ascendingFilter.evaluate collidingPrograms keepingStore [] bareSystem).object =
        [(resultAttribute, ascii "v" ++ [0]), (resultAttribute, resultOctets outcome.value)] ∧
      (keepingStore.read resultAttribute
        (ascendingFilter.evaluate collidingPrograms keepingStore [] bareSystem).object).2 =
        .ok (some (resultOctets outcome.value)) ∧
      (ascendingFilter.evaluate collidingPrograms keepingStore [] bareSystem).answer =
        .ok (-4) := by
  have hreplied : ((ascendingFilter.reply? collidingPrograms keepingStore []).map fun reply =>
      (reply.1, (Session.run (accepting collect) {} reply.2 []).answer.toOption)) =
      some ([], some (.completed (Prefix.value (ascii "-4.9")) 2)) := by
    decide +kernel
  rcases hreply : ascendingFilter.reply? collidingPrograms keepingStore [] with _ | ⟨object, r⟩
  · rw [hreply] at hreplied
    cases hreplied
  · rw [hreply, Option.map_some, Option.some.injEq, Prod.mk.injEq] at hreplied
    obtain ⟨rfl, htold⟩ := hreplied
    have houtcome : (Session.run (accepting collect) {} r []).answer =
        .ok (.completed (Prefix.value (ascii "-4.9")) 2) := by
      rcases hanswer : (Session.run (accepting collect) {} r []).answer with e | outcome
      · rw [hanswer] at htold
        cases htold
      · rw [hanswer] at htold
        exact congrArg Except.ok (Option.some.inj htold)
    obtain ⟨-, -, -, hread, -⟩ := evaluation_writes rfl rfl (fun _ _ _ => rfl) hreply houtcome
      bareSystem
    refine ⟨r, _, rfl, houtcome, ?_, hread fun value object => ?_, ?_⟩
    · decide +kernel
    · simp [keepingStore]
    · decide +kernel

end Filter

end ImageScoring
