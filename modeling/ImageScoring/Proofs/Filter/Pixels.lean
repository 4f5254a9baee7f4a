import ImageScoring.Proofs.Filter.Omission
import ImageScoring.Proofs.Payload

/-!
# Requests out of stored pixels

A filter that takes its images out of pixels reads three attributes of an object, in this order: the
height, the width and the pixels. `HoldsSize` and `FirstFault` say of the values alone what is right
and what is the first thing wrong with them. An evaluation gets as far as sending a request exactly
if nothing is wrong, and else names the first attribute at fault (`request_iff_sized`). Two sizes of
31 bits are never too large to be packed, so of the two ways in which packing fails one is
impossible.
-/

namespace ImageScoring

variable {σ ω : Type}

namespace Filter

/-! ### Sizes and what is wrong with them -/

/-- An attribute holds a size: the four octets of a number of 32 bits with a sign, least significant
octet first, that is not negative. -/
def HoldsSize (value : Option Bytes) (n : Nat) : Prop :=
  n < 2 ^ 31 ∧ value = some (Bytes.littleEndian 4 n)

/-- What is wrong with an attribute that holds no size. -/
inductive SizeProblem : Option Bytes → String → Prop where
  | missing : SizeProblem none "is missing"
  | length {value : Bytes} : value.length ≠ 4 →
      SizeProblem (some value) ("has " ++ toString value.length ++ " bytes, expected 4")
  | negative {n : Nat} : 0 < n → n ≤ 2 ^ 31 →
      SizeProblem (some (Bytes.littleEndian 4 (2 ^ 32 - n)))
        ("is negative (" ++ toString (-(n : Int)) ++ ")")

/-- What is wrong with the pixels of an image of that size: four octets are needed for each. -/
inductive PixelsProblem (height width : Nat) : Option Bytes → String → Prop where
  | missing : PixelsProblem height width none "is missing"
  | length {rgbx : Bytes} : rgbx.length ≠ 4 * height * width →
      PixelsProblem height width (some rgbx)
        (Payload.Fault.sizeMismatch width height (4 * height * width) rgbx.length).message

/-- The three attributes hold an image of that height and width. -/
structure HoldsImage (rows columns pixels : Option Bytes) (height width : Nat) (rgbx : Bytes) :
    Prop where
  rows : HoldsSize rows height
  columns : HoldsSize columns width
  pixels : pixels = some rgbx
  length : rgbx.length = 4 * height * width

/-- The first attribute at fault, in the order in which they are read, and what is wrong with it. -/
inductive FirstFault (rows columns pixels : Option Bytes) : String → String → Prop where
  | rows {problem : String} : SizeProblem rows problem →
      FirstFault rows columns pixels rowsAttribute problem
  | columns {height : Nat} {problem : String} : HoldsSize rows height →
      SizeProblem columns problem → FirstFault rows columns pixels columnsAttribute problem
  | pixels {height width : Nat} {problem : String} : HoldsSize rows height →
      HoldsSize columns width → PixelsProblem height width pixels problem →
      FirstFault rows columns pixels pixelsAttribute problem

/-- The object's attributes can be read and have these values. Nothing is asked of an attribute that
stands behind one at fault: it is not read. -/
structure Reads (store : ObjectStore ω) (object : ω) (rows columns pixels : Option Bytes) :
    Prop where
  rows_eq : (store.read rowsAttribute object).2 = .ok rows
  columns_eq : ∀ height, HoldsSize rows height →
    (store.read columnsAttribute (store.read rowsAttribute object).1).2 = .ok columns
  pixels_eq : ∀ height width, HoldsSize rows height → HoldsSize columns width →
    (store.read pixelsAttribute
      (store.read columnsAttribute (store.read rowsAttribute object).1).1).2 = .ok pixels

/-- An evaluation gets as far as sending a request: the object, `object'` by then, has given the
image, the next step is to send the worker the request for it, and the reply is read if the worker
takes that. -/
structure Asks (programs : Programs σ) (store : ObjectStore ω) (object : ω) (f : Filter σ)
    (s : System) (image : Bytes) (object' : ω) : Prop where
  read : readImage f.imageSource store object = (object', .ok image)
  evaluate : f.evaluate programs store object s =
    match f.worker.send programs.worker image (Utf8.ofText f.script) with
    | (worker, .error e) => ⟨.error e, { f with worker := worker }, s, object'⟩
    | (worker, .ok ()) => evaluateReply programs store object' { f with worker := worker } s
  request : f.request? programs store object =
    match (f.worker.send programs.worker image (Utf8.ofText f.script)).2 with
    | .ok () => some (Request.encode image (Utf8.ofText f.script))
    | .error _ => none

theorem HoldsSize.unique {value : Option Bytes} {m n : Nat} (hm : HoldsSize value m)
    (hn : HoldsSize value n) : m = n := by
  have heq : Bytes.littleEndian 4 m = Bytes.littleEndian 4 n :=
    Option.some.inj (hm.2.symm.trans hn.2)
  have hm' : m < 256 ^ 4 := Nat.lt_trans hm.1 (by decide)
  have hn' : n < 256 ^ 4 := Nat.lt_trans hn.1 (by decide)
  rw [← Bytes.ofLittleEndian_littleEndian hm', heq, Bytes.ofLittleEndian_littleEndian hn']

theorem SizeProblem.not_holdsSize {value : Option Bytes} {problem : String}
    (h : SizeProblem value problem) (n : Nat) : ¬HoldsSize value n := by
  rintro ⟨hn, hvalue⟩
  cases h with
  | missing => cases hvalue
  | length hlength =>
    rw [Option.some.inj hvalue] at hlength
    exact hlength (Bytes.length_littleEndian 4 n)
  | @negative k hpos hk =>
    have hn' : n < 256 ^ 4 := Nat.lt_trans hn (by decide)
    have hk' : 2 ^ 32 - k < 256 ^ 4 := by omega
    have heq := congrArg Bytes.ofLittleEndian (Option.some.inj hvalue)
    rw [Bytes.ofLittleEndian_littleEndian hk', Bytes.ofLittleEndian_littleEndian hn'] at heq
    omega

/-- An image at fault is none. -/
theorem FirstFault.not_holdsImage {rows columns pixels : Option Bytes} {name problem : String}
    (h : FirstFault rows columns pixels name problem) (height width : Nat) (rgbx : Bytes) :
    ¬HoldsImage rows columns pixels height width rgbx := by
  intro himage
  cases h with
  | rows hrows => exact hrows.not_holdsSize height himage.rows
  | columns _ hcolumns => exact hcolumns.not_holdsSize width himage.columns
  | pixels hrows hcolumns hpixels =>
    obtain rfl := hrows.unique himage.rows
    obtain rfl := hcolumns.unique himage.columns
    have hsome := himage.pixels
    cases hpixels with
    | missing => cases hsome
    | length hlength =>
      obtain rfl := Option.some.inj hsome
      exact hlength himage.length

/-! ### Reading the sizes and the pixels -/

variable {store : ObjectStore ω} {object object' : ω} {value : Option Bytes}

theorem required_of_read {name : String} {answer : Except Error (Option Bytes)}
    (h : store.read name object = (object', answer)) :
    required store name object = (object', answer.bind fun value =>
      value.elim (.error (.badAttribute name "is missing")) .ok) := by
  rw [required, h]
  rcases answer with e | _ | value <;> rfl

theorem dimension?_cases (name : String) (octets : Bytes) :
    (∃ n, HoldsSize (some octets) n ∧ dimension? name octets = .ok n) ∨
      ∃ problem, SizeProblem (some octets) problem ∧
        dimension? name octets = .error (.badAttribute name problem) := by
  unfold dimension?
  split
  · next hlength => exact .inr ⟨_, .length hlength, rfl⟩
  · next hlength =>
    have hfour : octets.length = 4 := by omega
    have hlt := Bytes.ofLittleEndian_lt octets
    have hback := Bytes.littleEndian_ofLittleEndian octets
    rw [hfour] at hlt hback
    dsimp only
    generalize Bytes.ofLittleEndian octets = n at hlt hback
    split
    · next hsize => exact .inl ⟨n, ⟨hsize, congrArg some hback.symm⟩, rfl⟩
    · next hsize =>
      have hcomplement : 2 ^ 32 - (2 ^ 32 - n) = n := by omega
      have hproblem : SizeProblem (some (Bytes.littleEndian 4 (2 ^ 32 - (2 ^ 32 - n)))) _ :=
        .negative (by omega) (by omega)
      rw [hcomplement, hback] at hproblem
      have hvalue : -((2 ^ 32 - n : Nat) : Int) = (n : Int) - 2 ^ 32 := by omega
      rw [hvalue] at hproblem
      exact .inr ⟨_, hproblem, rfl⟩

/-- An attribute holds a size and that is read, or something is wrong with it and that is told. -/
theorem readDimension_cases {name : String} (h : (store.read name object).2 = .ok value) :
    (∃ n, HoldsSize value n ∧
      readDimension store name object = ((store.read name object).1, .ok n)) ∨
    ∃ problem, SizeProblem value problem ∧
      readDimension store name object =
        ((store.read name object).1, .error (.badAttribute name problem)) := by
  have hrequired := @required_of_read _ store object _ name _ rfl
  rw [h] at hrequired
  rw [readDimension, hrequired]
  cases value with
  | none => exact .inr ⟨_, .missing, rfl⟩
  | some octets =>
    dsimp only [Except.bind, Option.elim]
    obtain ⟨n, hn, hread⟩ | ⟨problem, hproblem, hread⟩ := dimension?_cases name octets
    · exact .inl ⟨n, hn, by rw [hread]⟩
    · exact .inr ⟨problem, hproblem, by rw [hread]⟩

/-- Two sizes of 31 bits: four octets for each pixel have a size of 64 bits. -/
theorem four_mul_lt {height width : Nat} (hh : height < 2 ^ 31) (hw : width < 2 ^ 31) :
    4 * width * height < 2 ^ 64 := by
  have hle : width * height ≤ (2 ^ 31 - 1) * (2 ^ 31 - 1) :=
    Nat.mul_le_mul (by omega) (by omega)
  rw [Nat.mul_assoc]
  omega

theorem pack_of_sizes {height width : Nat} (hh : height < 2 ^ 31) (hw : width < 2 ^ 31)
    (rgbx : Bytes) :
    Payload.pack width height rgbx =
      if rgbx.length = 4 * height * width then .ok (Payload.dropFourth rgbx)
      else .error (.sizeMismatch width height (4 * height * width) rgbx.length) := by
  have hfits : 4 * width * height < Payload.sizeLimit := four_mul_lt hh hw
  have harea : 4 * width * height = 4 * height * width := Nat.mul_right_comm 4 width height
  rw [Payload.pack_eq, if_pos hfits, harea]

/-- The pixels have the right number of octets and are packed, or something is wrong with them and
that is told. -/
theorem readPixels_cases {height width : Nat} {pixels : Option Bytes} (hh : height < 2 ^ 31)
    (hw : width < 2 ^ 31) (h : (store.read pixelsAttribute object).2 = .ok pixels) :
    let read := Host.andThen (required store pixelsAttribute) fun rgbx object =>
      (object, Host.frame (.pixels width height rgbx))
    (∃ rgbx, pixels = some rgbx ∧ rgbx.length = 4 * height * width ∧
      read object = ((store.read pixelsAttribute object).1, .ok (Payload.dropFourth rgbx))) ∨
    ∃ problem, PixelsProblem height width pixels problem ∧
      read object = ((store.read pixelsAttribute object).1,
        .error (.badAttribute pixelsAttribute problem)) := by
  have hrequired := @required_of_read _ store object _ pixelsAttribute _ rfl
  rw [h] at hrequired
  dsimp only
  rw [Host.andThen, hrequired]
  cases pixels with
  | none => exact .inr ⟨_, .missing, rfl⟩
  | some rgbx =>
    dsimp only [Except.bind, Option.elim, Host.frame, Payload.bytes]
    rw [pack_of_sizes hh hw]
    by_cases hlength : rgbx.length = 4 * height * width
    · rw [if_pos hlength]
      exact .inl ⟨rgbx, rfl, hlength, rfl⟩
    · rw [if_neg hlength]
      exact .inr ⟨_, .length hlength, rfl⟩

theorem readImage_rgb :
    readImage .rgb store =
      Host.andThen (readDimension store rowsAttribute) fun height =>
        Host.andThen (readDimension store columnsAttribute) fun width =>
          Host.andThen (required store pixelsAttribute) fun rgbx object =>
            (object, Host.frame (.pixels width height rgbx)) := by
  rw [Host.readImage_eq, Host.readPayload_rgb]
  simp only [Host.andThen_assoc]
  rfl

/-- The image of an object, or the first fault of its attributes. -/
theorem readImage_cases {rows columns pixels : Option Bytes}
    (h : Reads store object rows columns pixels) :
    ∃ object', (∃ height width rgbx, HoldsImage rows columns pixels height width rgbx ∧
        readImage .rgb store object = (object', .ok (Payload.dropFourth rgbx))) ∨
      ∃ name problem, FirstFault rows columns pixels name problem ∧
        readImage .rgb store object = (object', .error (.badAttribute name problem)) := by
  rw [readImage_rgb, Host.andThen]
  obtain ⟨height, hheight, hrows⟩ | ⟨problem, hproblem, hrows⟩ := readDimension_cases h.rows_eq
  swap
  · rw [hrows]
    exact ⟨_, .inr ⟨_, _, .rows hproblem, rfl⟩⟩
  rw [hrows]
  dsimp only
  rw [Host.andThen]
  obtain ⟨width, hwidth, hcolumns⟩ | ⟨problem, hproblem, hcolumns⟩ :=
    readDimension_cases (h.columns_eq height hheight)
  swap
  · rw [hcolumns]
    exact ⟨_, .inr ⟨_, _, .columns hheight hproblem, rfl⟩⟩
  rw [hcolumns]
  dsimp only
  obtain ⟨rgbx, hsome, hlength, hread⟩ | ⟨problem, hproblem, hread⟩ :=
    readPixels_cases hheight.1 hwidth.1 (h.pixels_eq height width hheight hwidth)
  · exact ⟨_, .inl ⟨height, width, rgbx, ⟨hheight, hwidth, hsome, hlength⟩, hread⟩⟩
  · exact ⟨_, .inr ⟨_, _, .pixels hheight hwidth hproblem, hread⟩⟩

/-! ### Evaluations -/

variable {programs : Programs σ} {f : Filter σ} {s : System} {image : Bytes}

theorem asks_iff : Asks programs store object f s image object' ↔
    readImage f.imageSource store object = (object', .ok image) := by
  refine ⟨Asks.read, fun h => ⟨h, evaluate_of_image h, ?_⟩⟩
  rw [request?, h]
  dsimp only
  rcases f.worker.send programs.worker image (Utf8.ofText f.script) with ⟨w, e | ⟨⟩⟩ <;> rfl

theorem lt_of_readDimension {name : String} {n : Nat}
    (h : readDimension store name object = (object', .ok n)) : n < 2 ^ 31 := by
  rw [Host.readDimension_eq] at h
  obtain ⟨between, octets, -, hdimension⟩ := Host.of_andThen_eq_ok h
  have hok : dimension? name octets = .ok n := congrArg Prod.snd hdimension
  obtain ⟨m, hm, hread⟩ | ⟨problem, -, hread⟩ := dimension?_cases name octets
  · obtain rfl : m = n := Except.ok.inj (hread.symm.trans hok)
    exact hm.1
  · cases hread.symm.trans hok

/-- Sizes that have been read are never too large to be packed, whatever the pixels. -/
theorem bytes_ne_overflow {payload : Payload}
    (h : readPayload .rgb store object = (object', .ok payload)) (width height : Nat) :
    payload.bytes ≠ .error (.overflow width height) := by
  rw [Host.readPayload_rgb] at h
  obtain ⟨_, rows, hrows, h⟩ := Host.of_andThen_eq_ok h
  obtain ⟨_, columns, hcolumns, h⟩ := Host.of_andThen_eq_ok h
  obtain ⟨_, rgbx, -, h⟩ := Host.of_andThen_eq_ok h
  obtain rfl : .pixels columns rows rgbx = payload := Except.ok.inj (congrArg Prod.snd h)
  rw [Payload.bytes, pack_of_sizes (lt_of_readDimension hrows) (lt_of_readDimension hcolumns)]
  split <;> simp

/-- **An evaluation asks for a score exactly if the object holds an image.** A filter that takes its
images out of pixels gets as far as sending a request exactly if two attributes hold sizes and the
third holds four octets for each pixel, and then the image that it sends has three octets for each.
If not, it names the first attribute at fault, in the order height, width, pixels, and what is wrong
with it; it has sent nothing and changed nothing. That an image is too large is never what is wrong:
it is not for any two sizes that can be read. -/
theorem request_iff_sized (programs : Programs σ) (s : System) (hsource : f.imageSource = .rgb)
    {rows columns pixels : Option Bytes} (h : Reads store object rows columns pixels) :
    ((∃ image object', Asks programs store object f s image object') ↔
      ∃ height width rgbx, HoldsImage rows columns pixels height width rgbx) ∧
    (∀ image object' height width rgbx, Asks programs store object f s image object' →
      HoldsImage rows columns pixels height width rgbx → image.length = 3 * height * width) ∧
    ((¬∃ image object', Asks programs store object f s image object') →
      ∃ name problem object', FirstFault rows columns pixels name problem ∧
        f.evaluate programs store object s = ⟨.error (.badAttribute name problem), f, s, object'⟩ ∧
        f.request? programs store object = none) ∧
    ∀ object' payload, readPayload .rgb store object = (object', .ok payload) →
      ∀ width height, payload.bytes ≠ .error (.overflow width height) := by
  simp only [asks_iff, hsource]
  obtain ⟨object', ⟨height, width, rgbx, himage, hread⟩ | ⟨name, problem, hfault, hread⟩⟩ :=
    readImage_cases h
  · refine ⟨⟨fun _ => ⟨height, width, rgbx, himage⟩, fun _ => ⟨_, _, hread⟩⟩, ?_,
      fun hno => absurd ⟨_, _, hread⟩ hno, fun _ _ hpayload => bytes_ne_overflow hpayload⟩
    intro image object'' height' width' rgbx' hasks himage'
    obtain rfl := Except.ok.inj (congrArg Prod.snd (hread.symm.trans hasks))
    obtain rfl := himage.rows.unique himage'.rows
    obtain rfl := himage.columns.unique himage'.columns
    rw [Nat.mul_assoc]
    exact Payload.length_dropFourth (himage.length.trans (Nat.mul_assoc ..))
  · have hunread : readImage f.imageSource store object =
        (object', .error (.badAttribute name problem)) := by rw [hsource, hread]
    have hnever : ¬∃ image object', readImage .rgb store object = (object', .ok image) := by
      rintro ⟨image, object'', hok⟩
      cases hread.symm.trans hok
    refine ⟨⟨fun hasks => absurd hasks hnever, ?_⟩, ?_, ?_, fun _ _ hpayload =>
      bytes_ne_overflow hpayload⟩
    · rintro ⟨height, width, rgbx, himage⟩
      exact absurd himage (hfault.not_holdsImage height width rgbx)
    · intro image object'' _ _ _ hasks
      exact absurd ⟨image, object'', hasks⟩ hnever
    · exact fun _ => ⟨name, problem, object', hfault, evaluate_of_unread hunread,
        request?_of_unread hunread⟩

/-! ### A width below zero -/

/-- A store of attributes that takes no more of them. -/
def readingStore (contents : String → Option Bytes) : ObjectStore Unit where
  read name _ := ((), .ok (contents name))
  write _ _ _ := ((), .error (.host "refused"))

/-- Two pixels in one row, and an attribute that says how many they are. -/
def rowContents (columns : Bytes) (name : String) : Option Bytes :=
  if name = rowsAttribute then some [1, 0, 0, 0]
  else if name = columnsAttribute then some columns
  else if name = pixelsAttribute then some [1, 2, 3, 255, 4, 5, 6, 255]
  else none

def rowFilter : Filter Nat :=
  { ascendingFilter with imageSource := .rgb }

theorem reads_rowContents (columns : Bytes) :
    Reads (readingStore (rowContents columns)) () (some [1, 0, 0, 0]) (some columns)
      (some [1, 2, 3, 255, 4, 5, 6, 255]) where
  rows_eq := rfl
  columns_eq _ _ := rfl
  pixels_eq _ _ _ _ := rfl

/-- Two columns make a request, and minus one column is named before the pixels are. -/
theorem negative_width_named :
    (∃ image object', Asks ascendingPrograms (readingStore (rowContents [2, 0, 0, 0])) () rowFilter
      bareSystem image object' ∧ image.length = 3 * 1 * 2) ∧
    ∃ object', rowFilter.evaluate ascendingPrograms
      (readingStore (rowContents [255, 255, 255, 255])) () bareSystem =
        ⟨.error (.badAttribute columnsAttribute "is negative (-1)"), rowFilter, bareSystem,
          object'⟩ := by
  have himage : HoldsImage (some [1, 0, 0, 0]) (some [2, 0, 0, 0])
      (some [1, 2, 3, 255, 4, 5, 6, 255]) 1 2 _ :=
    ⟨⟨by decide, rfl⟩, ⟨by decide, rfl⟩, rfl, rfl⟩
  obtain ⟨hiff, hlength, -⟩ :=
    request_iff_sized ascendingPrograms bareSystem (f := rowFilter) rfl
      (reads_rowContents [2, 0, 0, 0])
  obtain ⟨image, object', hasks⟩ := hiff.mpr ⟨1, 2, _, himage⟩
  refine ⟨⟨image, object', hasks, hlength image object' 1 2 _ hasks himage⟩, (), ?_⟩
  rfl

end Filter

end ImageScoring
