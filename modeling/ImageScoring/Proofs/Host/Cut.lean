import ImageScoring.Host.Channel
import ImageScoring.Proofs.Request

/-!
# Talking to a host that stops listening

What the filter says to the host is made of separate writes, each of which may be the one that the
output refuses, and the talk goes on after that. An output with room for `n` octets has then taken
the first `n` octets of what would have been said to a host that listens to all of it, whatever is
read in between (`output_performAll`): what has been said is followed through any number of steps
by `Output.cut`. Something can be said exactly if all of it fits, and an attribute whose question
does not fit is not waited for.
-/

namespace ImageScoring

namespace Output

/-- An output with room for `n` octets after somebody tried to write `said` to it. -/
def cut (said : Bytes) (n : Nat) (refusal : String) : Output where
  written := said.take n
  room := some (n - said.length)
  refusal := refusal

/-- An output without a limit after `said` was written to it. -/
def whole (said : Bytes) : Output where
  written := said

theorem write_whole (said message : Bytes) :
    (whole said).write message = (whole (said ++ message), true) :=
  rfl

/-- One more write: it is cut off where all that was said is. -/
theorem write_cut (said message : Bytes) (n : Nat) (refusal : String) :
    (cut said n refusal).write message =
      (cut (said ++ message) n refusal, decide (message.length ≤ n - said.length)) := by
  have hwritten : (said ++ message).take n = said.take n ++ message.take (n - said.length) :=
    List.take_append
  have hroom : n - (said ++ message).length = n - said.length - message.length := by
    rw [List.length_append, Nat.sub_add_eq]
  rw [cut, cut, hwritten, hroom]
  rfl

end Output

namespace Host

/-! ### What is said, write by write -/

/-- The writes of a line. -/
def linePieces (content : Bytes) : List Bytes :=
  [content, [newline]]

/-- The writes of a string. -/
def stringPieces (content : Bytes) : List Bytes :=
  linePieces (Count.line content.length) ++ [content, [newline]]

/-- The writes of the question for an attribute. -/
def questionPieces (name : String) : List Bytes :=
  linePieces (ascii "get-attribute") ++ stringPieces (Utf8.ofText name)

theorem flatten_linePieces (content : Bytes) : (linePieces content).flatten = line content := by
  simp [linePieces, line]

theorem flatten_stringPieces (content : Bytes) :
    (stringPieces content).flatten = string content := by
  rw [stringPieces, List.flatten_append, flatten_linePieces]
  simp [string, line]

theorem flatten_questionPieces (name : String) :
    (questionPieces name).flatten = getAttribute name := by
  rw [questionPieces, List.flatten_append, flatten_linePieces, flatten_stringPieces, getAttribute]

namespace Channel

/-- Says something in several writes, up to the first that is refused. -/
def sendPieces (pieces : List Bytes) (c : Channel) : Channel × Except Fault Unit :=
  match c.output.writeAll pieces with
  | (output, true) => ({ c with output := output }, .ok ())
  | (output, false) => ({ c with output := output }, .error (.refused output.refusal))

/-- In how many writes something is said makes no difference. -/
theorem sendPieces_eq (pieces : List Bytes) (c : Channel) :
    c.sendPieces pieces = c.send pieces.flatten := by
  rw [sendPieces, Output.writeAll_eq]
  rfl

end Channel

/-- Something that can be said to the host. -/
inductive Utterance where
  | line (content : Bytes)
  | string (content : Bytes)
  | result (score : Int)
  /-- An attribute is set. -/
  | setting (name : String) (content : Bytes)

namespace Utterance

/-- The octets of it. -/
def octets : Utterance → Bytes
  | line content => Host.line content
  | string content => Host.string content
  | result score => Host.result score
  | setting name content => setAttribute name content

/-- The writes of it. -/
def pieces : Utterance → List Bytes
  | line content => linePieces content
  | string content => stringPieces content
  | result score => linePieces (ascii "result") ++ stringPieces (ascii (toString score))
  | setting name content =>
    linePieces (ascii "set-attribute") ++ stringPieces (Utf8.ofText name) ++ stringPieces content

/-- Says it. -/
def say (c : Channel) : Utterance → Channel × Except Fault Unit
  | line content => c.send (Host.line content)
  | string content => c.send (Host.string content)
  | result score => c.send (Host.result score)
  | setting name content => c.writeAttribute name content

theorem flatten_pieces (u : Utterance) : u.pieces.flatten = u.octets := by
  cases u with
  | line content => exact flatten_linePieces content
  | string content => exact flatten_stringPieces content
  | result score =>
    rw [pieces, List.flatten_append, flatten_linePieces, flatten_stringPieces, octets, Host.result]
  | setting name content =>
    rw [pieces, List.flatten_append, List.flatten_append, flatten_linePieces, flatten_stringPieces,
      flatten_stringPieces, octets, setAttribute]

theorem say_eq (u : Utterance) (c : Channel) : u.say c = c.send u.octets := by
  cases u <;> rfl

/-- Whatever is said ends in a newline, so something is. -/
theorem octets_ne_nil (u : Utterance) : u.octets ≠ [] := by
  cases u <;> simp [octets, Host.line, Host.string, Host.result, setAttribute]

end Utterance

theorem getAttribute_ne_nil (name : String) : getAttribute name ≠ [] := by
  simp [getAttribute, Host.line]

/-! ### Steps of the talk -/

/-- A step of the talk. -/
inductive Step where
  | say (u : Utterance)
  /-- An attribute is asked for, and the answer is taken. -/
  | ask (name : String)
  /-- Nothing is held back from the output, so there is nothing to do. -/
  | flush

namespace Step

/-- What is said in a step. -/
def octets : Step → Bytes
  | say u => u.octets
  | ask name => getAttribute name
  | flush => []

/-- The channel after a step, whatever came of it. -/
def perform (c : Channel) : Step → Channel
  | say u => (u.say c).1
  | ask name => (c.readAttribute name).1
  | flush => c

/-- The channel after one step after the other. -/
def performAll (steps : List Step) (c : Channel) : Channel :=
  steps.foldl perform c

end Step

namespace Channel

theorem output_take {α : Type} (step : Reader → Except ReadFault (α × Reader)) (c : Channel) :
    (c.take step).1.output = c.output := by
  rw [take]
  split <;> rfl

theorem output_stringAfter (lengthLine : Bytes) (c : Channel) :
    (c.stringAfter lengthLine).1.output = c.output := by
  rw [stringAfter]
  split
  · rfl
  · split
    · rfl
    · next length _ =>
      have hpayload := c.output_take (Reader.payload length)
      split
      · next htake =>
        rw [htake] at hpayload
        exact hpayload
      · next c₁ content htake =>
        rw [htake] at hpayload
        have hterminator := c₁.output_take Reader.terminator
        split
        all_goals
          next htake =>
          rw [htake] at hterminator
          exact hterminator.trans hpayload

/-- Taking an answer says nothing. -/
theorem output_string (c : Channel) : c.string.1.output = c.output := by
  have hline := c.output_take Reader.line
  rw [string]
  split
  · next htake =>
    rw [htake] at hline
    exact hline
  · next c₁ line htake =>
    rw [htake] at hline
    exact (c₁.output_stringAfter line).trans hline

theorem output_send (message : Bytes) (c : Channel) :
    (c.send message).1.output = (c.output.write message).1 := by
  rw [send]
  split
  all_goals
    next hwrite =>
    rw [hwrite]

/-- An attribute is asked for by the question alone. -/
theorem output_readAttribute (name : String) (c : Channel) :
    (c.readAttribute name).1.output = (c.output.write (getAttribute name)).1 := by
  have hsend := c.output_send (getAttribute name)
  rw [readAttribute]
  split
  · next c₁ hsent =>
    rw [hsent] at hsend
    exact c₁.output_string.trans hsend
  · next c₁ fault hsent =>
    rw [hsent] at hsend
    exact hsend

end Channel

namespace Step

theorem output_perform (step : Step) (c : Channel) :
    (step.perform c).output = (c.output.write step.octets).1 := by
  cases step with
  | say u =>
    rw [perform, u.say_eq]
    exact c.output_send u.octets
  | ask name => exact c.output_readAttribute name
  | flush =>
    have hnothing : c.output.write [] = (c.output, true) := (c.output.writeAll_eq []).symm
    rw [octets, hnothing]
    rfl

/-- **However many steps are taken**, an output that is told by what was said stays so: it makes no
difference where one step ends and the next begins, nor what is read in between. -/
theorem output_performAll (told : Bytes → Output)
    (hwrite : ∀ said message, ((told said).write message).1 = told (said ++ message))
    (steps : List Step) (c : Channel) (said : Bytes) (h : c.output = told said) :
    (performAll steps c).output = told (said ++ steps.flatMap octets) := by
  induction steps generalizing c said with
  | nil => rwa [List.flatMap_nil, List.append_nil]
  | cons step steps ih =>
    have hstep : (step.perform c).output = told (said ++ step.octets) := by
      rw [output_perform, h, hwrite]
    rw [List.flatMap_cons, ← List.append_assoc]
    exact ih (step.perform c) (said ++ step.octets) hstep

end Step

namespace Channel

/-- What is said fits, or it does not and the channel only knows that. -/
theorem send_cut {c : Channel} {said message : Bytes} {n : Nat} {refusal : String}
    (h : c.output = .cut said n refusal) (hne : message ≠ []) :
    c.send message = ({ c with output := .cut (said ++ message) n refusal },
      if (said ++ message).length ≤ n then .ok () else .error (.refused refusal)) := by
  have hpos : 0 < message.length := List.length_pos_iff.mpr hne
  rw [send, h, Output.write_cut]
  by_cases hfits : (said ++ message).length ≤ n
  · rw [if_pos hfits]
    rw [List.length_append] at hfits
    rw [decide_eq_true (by omega)]
  · rw [if_neg hfits]
    rw [List.length_append] at hfits
    rw [decide_eq_false (by omega)]
    rfl

/-- **A host that stops listening has heard the beginning of all that was said.** The same steps are
taken with an output that accepts `n` octets in all and with one that accepts everything, and the
inputs may differ. Then the first `n` octets of what the one was told are what the other was told.
What comes next can be said exactly if all that is said up to its end is no more than `n` octets. An
attribute whose question is more than that is not waited for: the step fails, and nothing is read;
else the answer is taken. All of this is said write by write, up to the first that is refused. -/
theorem cut_off_as_beginning (steps : List Step) (r r' : Reader) (n : Nat) (refusal : String) :
    let all := Step.performAll steps ⟨r', {}⟩
    let c := Step.performAll steps ⟨r, { room := some n, refusal := refusal }⟩
    c.output.written = all.output.written.take n ∧
    (∀ u : Utterance, (u.say c).2 = .ok () ↔ (u.say all).1.output.written.length ≤ n) ∧
    (∀ name : String,
      let total := (all.readAttribute name).1.output.written.length
      (n < total → ∃ output,
        c.readAttribute name = ({ c with output := output }, .error (.refused refusal))) ∧
      (total ≤ n → ∃ output, c.readAttribute name = Channel.string { c with output := output })) ∧
    ∀ c' : Channel, (∀ u : Utterance, u.say c' = c'.sendPieces u.pieces) ∧
      ∀ name : String, c'.readAttribute name =
        match c'.sendPieces (questionPieces name) with
        | (c', .ok ()) => c'.string
        | (c', .error fault) => (c', .error fault) := by
  have hstart : ({ room := some n, refusal := refusal } : Output) = .cut [] n refusal := by
    rw [Output.cut, List.take_nil]
    rfl
  have hall := Step.output_performAll Output.whole (fun _ _ => rfl) steps ⟨r', {}⟩ [] rfl
  have hcut := Step.output_performAll (Output.cut · n refusal)
    (fun said message => by rw [Output.write_cut]) steps ⟨r, { room := some n, refusal := refusal }⟩
    [] hstart
  rw [List.nil_append] at hall hcut
  refine ⟨?_, fun u => ?_, fun name => ?_, fun c' => ⟨fun u => ?_, fun name => ?_⟩⟩
  · rw [hall, hcut]
    rfl
  · rw [u.say_eq, u.say_eq, send_cut hcut u.octets_ne_nil, output_send, hall, Output.write_whole]
    dsimp only [Output.whole]
    split
    · next hfits => exact ⟨fun _ => hfits, fun _ => rfl⟩
    · next hlong => exact ⟨(nomatch ·), fun hfits => absurd hfits hlong⟩
  · rw [output_readAttribute, hall, Output.write_whole]
    dsimp only [Output.whole]
    rw [readAttribute, send_cut hcut (getAttribute_ne_nil name)]
    refine ⟨fun hlong => ?_, fun hfits => ?_⟩
    · rw [if_neg (Nat.not_le.mpr hlong)]
      exact ⟨_, rfl⟩
    · rw [if_pos hfits]
      exact ⟨_, rfl⟩
  · rw [u.say_eq, sendPieces_eq, u.flatten_pieces]
  · rw [sendPieces_eq, flatten_questionPieces]
    rfl

end Channel

end Host

end ImageScoring
