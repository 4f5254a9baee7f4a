import ImageScoring.Request

/-!
# Requests are read back, and cut off as prefixes

An output takes what is written piece by piece as if it were written at once (`writeAll_eq`), so a
request is written as its octets are. Whoever reads one length after another, and that many octets
behind each, finds the requests again (`decodeAll?_octets`). An output that does not take all of a
request has taken the first octets of it, however the cut lies.
-/

namespace ImageScoring

namespace Output

/-! ### Writing in pieces -/

/-- What does not fit with something behind it is cut off at the same place without that. -/
theorem write_append (o : Output) (piece more : Bytes) :
    o.write (piece ++ more) = match o.write piece with
      | (o, true) => o.write more
      | (o, false) => (o, false) := by
  obtain ⟨written, room, refusal⟩ := o
  cases room with
  | none => simp [write]
  | some room =>
    by_cases hfits : piece.length ≤ room
    · have haccepts : accepts ⟨written, some room, refusal⟩ piece.length = true :=
        decide_eq_true hfits
      simp only [write, haccepts]
      simp only [List.take_append, List.take_of_length_le hfits, List.append_assoc,
        List.length_append, Nat.sub_add_eq, accepts, Prod.mk.injEq, true_and]
      exact decide_eq_decide.mpr (by omega)
    · have hrefuses : accepts ⟨written, some room, refusal⟩ piece.length = false :=
        decide_eq_false hfits
      have hnone : room - (piece.length + more.length) = room - piece.length := by omega
      have hover : ¬piece.length + more.length ≤ room := by omega
      simp only [write, hrefuses]
      simp only [List.take_append_of_le_length (Nat.le_of_not_le hfits), List.length_append,
        hnone, accepts, decide_eq_false hover]

/-- **Pieces are written as if at once.** -/
theorem writeAll_eq (o : Output) (pieces : List Bytes) :
    o.writeAll pieces = o.write pieces.flatten := by
  induction pieces generalizing o with
  | nil =>
    obtain ⟨written, _ | room, refusal⟩ := o <;> simp [writeAll, write, accepts]
  | cons piece pieces ih =>
    rw [List.flatten_cons, write_append, writeAll]
    rcases o.write piece with ⟨o', _ | _⟩
    · rfl
    · exact ih o'

end Output

namespace Request

/-- What a request is made of, short enough for its frames. -/
structure Parts where
  image : Bytes
  name : Bytes
  image_fits : image.length < frameLimit
  name_fits : name.length < frameLimit

namespace Parts

/-- The image and the name of the script. -/
def pair (r : Parts) : Bytes × Bytes :=
  (r.image, r.name)

/-- The octets of the request. -/
def octets (r : Parts) : Bytes :=
  encode r.image r.name

end Parts

/-- Writes one request after the other, up to the first that cannot be written. -/
def writeMany (o : Output) : List (Bytes × Bytes) → Output × Except Fault Unit
  | [] => (o, .ok ())
  | (image, name) :: requests =>
    match write o image name with
    | (o, .ok ()) => writeMany o requests
    | (o, .error fault) => (o, .error fault)

/-! ### What is written -/

/-- What a writer of requests is told when an output has taken all, or not. -/
def told : Output × Bool → Output × Except Fault Unit
  | (o, true) => (o, .ok ())
  | (o, false) => (o, .error (.refused o.refusal))

theorem writeFrame_eq (o : Output) {content : Bytes} (h : content.length < frameLimit) :
    writeFrame o content = told (o.write (frame content)) := by
  have hflatten : frame content = [Bytes.bigEndian 4 content.length, content].flatten := by
    simp [frame]
  rw [writeFrame, if_pos h, hflatten, ← Output.writeAll_eq]
  rcases o.writeAll [Bytes.bigEndian 4 content.length, content] with ⟨o', _ | _⟩ <;> rfl

/-- **A request is written as its octets are.** -/
theorem write_eq (o : Output) (r : Parts) : write o r.image r.name = told (o.write r.octets) := by
  rw [write, writeFrame_eq o r.image_fits, Parts.octets, encode, Output.write_append]
  rcases o.write (frame r.image) with ⟨o', _ | _⟩
  · rfl
  · exact writeFrame_eq o' r.name_fits

theorem writeMany_eq (o : Output) (requests : List Parts) :
    writeMany o (requests.map Parts.pair) = told (o.write (requests.flatMap Parts.octets)) := by
  induction requests generalizing o with
  | nil =>
    have hnothing : o.write [] = (o, true) := (o.writeAll_eq []).symm
    rw [List.flatMap_nil, hnothing]
    rfl
  | cons r requests ih =>
    rw [List.map_cons, List.flatMap_cons, Output.write_append, Parts.pair, writeMany, write_eq]
    rcases o.write r.octets with ⟨o', _ | _⟩
    · rfl
    · exact ih o'

/-! ### What is read back -/

theorem length_of_frame?_eq_some {bs content rest : Bytes} (h : frame? bs = some (content, rest)) :
    rest.length < bs.length := by
  unfold frame? at h
  split at h
  · simp at h
  · dsimp only at h
    split at h
    · simp at h
    · obtain ⟨-, rfl⟩ := Prod.mk.inj (Option.some.inj h)
      rw [List.length_drop, List.length_drop]
      omega

theorem length_of_decode?_eq_some {bs rest : Bytes} {request : Bytes × Bytes}
    (h : decode? bs = some (request, rest)) : rest.length < bs.length := by
  unfold decode? at h
  split at h
  · simp at h
  · next image bs₁ himage =>
    split at h
    · simp at h
    · next name bs₂ hname =>
      obtain ⟨-, rfl⟩ := Prod.mk.inj (Option.some.inj h)
      exact Nat.lt_trans (length_of_frame?_eq_some hname) (length_of_frame?_eq_some himage)

/-- The requests that a byte string is made of, if nothing else is in it. -/
def decodeAll? (bs : Bytes) : Option (List (Bytes × Bytes)) :=
  if bs = [] then some []
  else
    match _h : decode? bs with
    | none => none
    | some (request, rest) => (decodeAll? rest).map (request :: ·)
termination_by bs.length
decreasing_by exact length_of_decode?_eq_some _h

theorem frame?_frame {content : Bytes} (h : content.length < frameLimit) (rest : Bytes) :
    frame? (frame content ++ rest) = some (content, rest) := by
  have hlength := Bytes.length_bigEndian 4 content.length
  have htake : (frame content ++ rest).take 4 = Bytes.bigEndian 4 content.length := by
    rw [frame, List.append_assoc, List.take_left' hlength]
  have hdrop : (frame content ++ rest).drop 4 = content ++ rest := by
    rw [frame, List.append_assoc, List.drop_left' hlength]
  have hread : Bytes.ofBigEndian (Bytes.bigEndian 4 content.length) = content.length :=
    Bytes.ofBigEndian_bigEndian h
  have hlong : ¬(frame content ++ rest).length < 4 := by
    rw [frame, List.length_append, List.length_append, hlength]
    omega
  rw [frame?, if_neg hlong]
  simp only [htake, hdrop, hread]
  rw [if_neg (by rw [List.length_append]; omega), List.take_left, List.drop_left]

theorem decode?_octets (r : Parts) (rest : Bytes) :
    decode? (r.octets ++ rest) = some (r.pair, rest) := by
  rw [Parts.octets, encode, List.append_assoc, decode?, frame?_frame r.image_fits]
  dsimp only
  rw [frame?_frame r.name_fits]
  rfl

theorem octets_ne_nil (r : Parts) : r.octets ≠ [] := by
  have hlong : 4 ≤ r.octets.length := by
    rw [Parts.octets, encode, frame, List.length_append, List.length_append,
      Bytes.length_bigEndian]
    omega
  exact List.ne_nil_of_length_pos (by omega)

/-- **Requests read back as they were put together**, with nothing left over. -/
theorem decodeAll?_octets (requests : List Parts) :
    decodeAll? (requests.flatMap Parts.octets) = some (requests.map Parts.pair) := by
  induction requests with
  | nil => rw [List.flatMap_nil, decodeAll?, if_pos rfl]; rfl
  | cons r requests ih =>
    rw [List.flatMap_cons, decodeAll?, if_neg (by simp [octets_ne_nil])]
    split
    · next h => rw [decode?_octets] at h; simp at h
    · next request rest h =>
      rw [decode?_octets] at h
      obtain ⟨rfl, rfl⟩ := Prod.mk.inj (Option.some.inj h)
      rw [ih]
      rfl

/-- **Requests can be told apart, and a cut leaves the beginning of one.** Requests that are written
one after the other read back as these requests, with nothing left over. If an output takes `n` more
octets in all and then fails, the first `n` octets of a request are taken, or all of them, and the
writer is told that all is well exactly if that was the whole request. -/
theorem written_read_back_and_cut :
    (∀ requests : List Parts, ∃ o, writeMany {} (requests.map Parts.pair) = (o, .ok ()) ∧
      decodeAll? o.written = some (requests.map Parts.pair)) ∧
    ∀ (r : Parts) (n : Nat) (before : Bytes) (refusal : String),
      let done := write { written := before, room := some n, refusal := refusal } r.image r.name
      done.1.written = before ++ r.octets.take (min n r.octets.length) ∧
        (done.2 = .ok () ↔ r.octets.length ≤ n) := by
  refine ⟨fun requests => ?_, fun r n before refusal => ?_⟩
  · have hwritten := writeMany_eq {} requests
    refine ⟨_, hwritten, ?_⟩
    rw [List.nil_append]
    exact decodeAll?_octets requests
  · have hwrite :
        ({ written := before, room := some n, refusal := refusal } : Output).write r.octets =
        (⟨before ++ r.octets.take n, some (n - r.octets.length), refusal⟩,
          decide (r.octets.length ≤ n)) := rfl
    dsimp only
    rw [write_eq, hwrite, List.take_eq_take_min]
    by_cases hfits : r.octets.length ≤ n
    · rw [decide_eq_true hfits]
      exact ⟨rfl, by simp [told, hfits]⟩
    · rw [decide_eq_false hfits]
      exact ⟨rfl, by simp [told, hfits]⟩

end Request

end ImageScoring
