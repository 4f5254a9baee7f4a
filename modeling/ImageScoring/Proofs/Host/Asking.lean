import ImageScoring.Proofs.Host.Listening

/-!
# Asking the host

The attributes of an image are asked for one after the other. What comes of that depends on the
host's answers alone: it is what comes of a list that holds these answers (`readImage_asked`).
-/

namespace ImageScoring.Host

open ImageScoring.Filter Channel

variable {α β : Type} {names names' : List String} {stream rest written : Bytes}

/-! ### Single questions -/

/-- Nothing went wrong but that an attribute is not as it should be. -/
def Settled (x : Except Error α) : Prop :=
  ∀ e, x = .error e → ∃ name problem, e = .badAttribute name problem

theorem settled_ok (x : α) : Settled (.ok x : Except Error α) := by
  rintro e ⟨⟩

theorem settled_badAttribute (name problem : String) :
    Settled (.error (.badAttribute name problem) : Except Error α) := by
  rintro e ⟨⟩
  exact ⟨name, problem, rfl⟩

/-- Attributes of these names are asked for, by a list of answers and by the host: the host's
answers are those of a list, and it is told what comes of that, or it gives no answer to one of the
questions. -/
inductive Asked (names : List String)
    (byList : List (Option Bytes) → List (Option Bytes) × Except Error α)
    (byHost : Channel → Channel × Except Error α) (stream written : Bytes) : Prop where
  | done {answers : List (Option Bytes)} {rest : Bytes} {x : Except Error α} :
      Answers answers stream rest → Settled x → answers.length ≤ names.length →
      (x.toOption.isSome = true → answers.length = names.length) →
      (∀ more, byList (answers ++ more) = (more, x)) →
      byHost (between stream written) =
        (between rest (written ++ (names.take answers.length).flatMap getAttribute), x) →
      Asked names byList byHost stream written
  | broken {answers : List (Option Bytes)} {rest : Bytes} :
      Answers answers stream rest → (∀ a rest', ¬Answer a rest rest') →
      answers.length < names.length → byList answers = ([], .error .hung) →
      (∃ rest' cause, byHost (between stream written) =
        (between rest' (written ++ (names.take (answers.length + 1)).flatMap getAttribute),
          .error (.host cause))) →
      Asked names byList byHost stream written

/-! ### How questions are put together -/

/-- One thing after the other, unless the first one fails. -/
def andThen {ω : Type} (first : ω → ω × Except Error α) (next : α → ω → ω × Except Error β)
    (object : ω) : ω × Except Error β :=
  match first object with
  | (object, .error e) => (object, .error e)
  | (object, .ok x) => next x object

theorem andThen_assoc {ω γ : Type} (first : ω → ω × Except Error α)
    (next : α → ω → ω × Except Error β) (last : β → ω → ω × Except Error γ) :
    andThen (andThen first next) last = andThen first fun x => andThen (next x) last := by
  funext object
  rw [andThen, andThen, andThen]
  rcases first object with ⟨object, e | x⟩ <;> rfl

theorem of_andThen_eq_ok {ω : Type} {first : ω → ω × Except Error α}
    {next : α → ω → ω × Except Error β} {object object' : ω} {y : β}
    (h : andThen first next object = (object', .ok y)) :
    ∃ between x, first object = (between, .ok x) ∧ next x between = (object', .ok y) := by
  unfold andThen at h
  rcases hfirst : first object with ⟨between, e | x⟩
  · rw [hfirst] at h
    cases h
  · rw [hfirst] at h
    exact ⟨between, x, rfl, h⟩

theorem asked_pure {x : Except Error α} (h : Settled x) (stream written : Bytes) :
    Asked [] (fun answers => (answers, x)) (fun c => (c, x)) stream written := by
  have hnone : Answers [] stream stream := .nil
  refine .done hnone h (Nat.le_refl _) (fun _ => rfl) (fun _ => rfl) ?_
  simp

theorem Asked.bind {byList : List (Option Bytes) → List (Option Bytes) × Except Error α}
    {byHost : Channel → Channel × Except Error α}
    {byList' : α → List (Option Bytes) → List (Option Bytes) × Except Error β}
    {byHost' : α → Channel → Channel × Except Error β}
    (h : Asked names byList byHost stream written)
    (h' : ∀ x stream written, Asked names' (byList' x) (byHost' x) stream written) :
    Asked (names ++ names') (andThen byList byList') (andThen byHost byHost') stream written := by
  cases h with
  | @broken answers rest hanswers hno hless hlist hhost =>
    obtain ⟨rest', cause, hhost⟩ := hhost
    refine .broken hanswers hno (by rw [List.length_append]; omega)
      (by rw [andThen, hlist]) ⟨rest', cause, ?_⟩
    rw [andThen, hhost, List.take_append_of_le_length hless]
  | @done answers rest x hanswers hsettled hle hall hlist hhost =>
    cases x with
    | error e =>
      obtain ⟨name, problem, rfl⟩ := hsettled e rfl
      refine .done hanswers (settled_badAttribute name problem) ?_ (by rintro ⟨⟩) ?_ ?_
      · rw [List.length_append]
        omega
      · intro more
        rw [andThen, hlist]
      · rw [andThen, hhost, List.take_append_of_le_length hle]
    | ok x =>
      have hlength := hall rfl
      have htake : (names.take answers.length) = names := by
        rw [hlength, List.take_length]
      rw [htake] at hhost
      have hnames : ∀ n, (names ++ names').take (answers.length + n) = names ++ names'.take n := by
        intro n
        rw [hlength, List.take_length_add_append]
      rcases h' x rest (written ++ names.flatMap getAttribute) with
        ⟨hanswers', hsettled', hle', hall', hlist', hhost'⟩ |
        ⟨hanswers', hno', hless', hlist', rest', cause, hhost'⟩
      · refine .done (hanswers.append hanswers') hsettled' ?_ (fun hok => ?_) (fun more => ?_) ?_
        · rw [List.length_append, List.length_append]
          omega
        · rw [List.length_append, List.length_append, hlength, hall' hok]
        · rw [List.append_assoc, andThen, hlist]
          exact hlist' more
        · rw [andThen, hhost, List.length_append, hnames, List.flatMap_append, ← List.append_assoc]
          exact hhost'
      · refine .broken (hanswers.append hanswers') hno' ?_ ?_ ⟨rest', cause, ?_⟩
        · rw [List.length_append, List.length_append]
          omega
        · rw [andThen, hlist]
          exact hlist'
        · rw [andThen, hhost, List.length_append, Nat.add_assoc, hnames, List.flatMap_append,
            ← List.append_assoc]
          exact hhost'

/-! ### The questions for an image -/

theorem required_asked (name : String) (stream written : Bytes) :
    Asked [name] (required scripted name) (required remoteObject name) stream written := by
  have hask : (between stream written).readAttribute name =
      (between stream (written ++ getAttribute name)).string := by
    rw [readAttribute, send_between]
  rcases string_cases stream (written ++ getAttribute name) with
    ⟨a, rest, hanswer, hstring⟩ | ⟨hno, rest, fault, cause, hstring, hcause⟩
  · have hremote : remoteObject.read name (between stream written) =
        (between rest (written ++ getAttribute name), .ok a) := by
      rw [remoteObject]
      dsimp only
      rw [hask, hstring]
    have hanswers : Answers [a] stream rest := .cons hanswer .nil
    cases a with
    | none =>
      refine .done hanswers (settled_badAttribute name "is missing") (Nat.le_refl _) (fun _ => rfl)
        (fun more => rfl) ?_
      rw [required, hremote]
      simp
    | some value =>
      refine .done hanswers (settled_ok value) (Nat.le_refl _) (fun _ => rfl) (fun more => rfl) ?_
      rw [required, hremote]
      simp
  · have hremote : remoteObject.read name (between stream written) =
        (between rest (written ++ getAttribute name), .error (.host cause)) := by
      rw [remoteObject]
      dsimp only
      rw [hask, hstring]
      dsimp only
      rw [hcause]
    refine .broken .nil hno Nat.zero_lt_one rfl ⟨rest, cause, ?_⟩
    rw [required, hremote]
    simp

theorem settled_dimension (name : String) (value : Bytes) : Settled (dimension? name value) := by
  unfold dimension?
  dsimp only
  split
  · exact settled_badAttribute name _
  · split
    · exact settled_ok _
    · exact settled_badAttribute name _

section

variable {ω : Type} (store : ObjectStore ω)

theorem readDimension_eq (name : String) :
    readDimension store name =
      andThen (required store name) fun value object => (object, dimension? name value) := by
  funext object
  rw [readDimension, andThen]
  rcases required store name object with ⟨object, e | value⟩ <;> rfl

theorem readPayload_object :
    readPayload .object store =
      andThen (required store dataAttribute) fun bytes object =>
        (object, .ok (.encoded bytes)) := by
  funext object
  rw [readPayload, andThen]
  rcases required store dataAttribute object with ⟨object, e | bytes⟩ <;> rfl

theorem readPayload_rgb :
    readPayload .rgb store =
      andThen (readDimension store rowsAttribute) fun height =>
        andThen (readDimension store columnsAttribute) fun width =>
          andThen (required store pixelsAttribute) fun rgbx object =>
            (object, .ok (.pixels width height rgbx)) := by
  funext object
  rw [readPayload, andThen]
  rcases readDimension store rowsAttribute object with ⟨object, e | height⟩
  · rfl
  · dsimp only
    rw [andThen]
    rcases readDimension store columnsAttribute object with ⟨object, e | width⟩
    · rfl
    · dsimp only
      rw [andThen]
      rcases required store pixelsAttribute object with ⟨object, e | rgbx⟩ <;> rfl

/-- The octets of an image frame, or what is wrong with the pixels. -/
def frame (payload : Payload) : Except Error Bytes :=
  payload.bytes.mapError fun fault => .badAttribute pixelsAttribute fault.message

theorem readImage_eq (source : ImageSource) :
    readImage source store =
      andThen (readPayload source store) fun payload object => (object, frame payload) := by
  funext object
  rw [readImage, andThen]
  rcases readPayload source store object with ⟨object, e | payload⟩
  · rfl
  · dsimp only [frame]
    cases payload.bytes <;> rfl

end

theorem settled_frame (payload : Payload) : Settled (frame payload) := by
  unfold frame
  cases payload.bytes with
  | ok bytes => exact settled_ok bytes
  | error fault => exact settled_badAttribute _ _

theorem readDimension_asked (name : String) (stream written : Bytes) :
    Asked [name] (readDimension scripted name) (readDimension remoteObject name) stream
      written := by
  rw [readDimension_eq, readDimension_eq]
  exact (required_asked name stream written).bind fun value =>
    asked_pure (settled_dimension name value)

theorem readPayload_asked (source : ImageSource) (stream written : Bytes) :
    Asked (questions source) (readPayload source scripted) (readPayload source remoteObject) stream
      written := by
  cases source with
  | object =>
    rw [readPayload_object, readPayload_object]
    exact (required_asked dataAttribute stream written).bind fun bytes =>
      asked_pure (settled_ok _)
  | rgb =>
    rw [readPayload_rgb, readPayload_rgb]
    refine (readDimension_asked rowsAttribute stream written).bind fun height stream written => ?_
    refine (readDimension_asked columnsAttribute stream written).bind fun width stream written => ?_
    exact (required_asked pixelsAttribute stream written).bind fun rgbx =>
      asked_pure (settled_ok _)

/-- **What comes of the questions for an image depends on the answers alone.** -/
theorem readImage_asked (source : ImageSource) (stream written : Bytes) :
    Asked (questions source) (readImage source scripted) (readImage source remoteObject) stream
      written := by
  rw [readImage_eq, readImage_eq, ← List.append_nil (questions source)]
  exact (readPayload_asked source stream written).bind fun payload =>
    asked_pure (settled_frame payload)

end ImageScoring.Host
