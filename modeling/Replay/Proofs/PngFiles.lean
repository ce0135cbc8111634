import Replay.Picture

namespace Replay

namespace Bytes

/-- The four bytes of a number, the highest byte first. -/
def ofBig (n : UInt32) : Bytes :=
  [UInt8.ofNat (n.toNat / 2 ^ 24), UInt8.ofNat (n.toNat / 2 ^ 16), UInt8.ofNat (n.toNat / 2 ^ 8),
    UInt8.ofNat n.toNat]

@[simp] theorem length_ofBig (n : UInt32) : (ofBig n).length = 4 := rfl

@[simp] theorem big_ofBig (n : UInt32) : big (ofBig n) = n.toNat := by
  have hlt : n.toNat < 2 ^ 32 := n.toNat_lt
  simp only [big, ofBig, List.foldl_cons, List.foldl_nil, UInt8.toNat_ofNat']
  omega

theorem split?_append {count : Nat} {first rest : Bytes} (h : first.length = count) :
    split? count (first ++ rest) = some (first, rest) := by
  subst h
  simp [split?]

theorem latin_ofLatin {t : Text} (h : ∀ c ∈ t, c.val < 256) : latin (ofLatin t) = t := by
  rw [latin, ofLatin, List.map_map]
  refine (List.map_congr_left fun c hc => ?_).trans (List.map_id t)
  have hbyte : (UInt8.ofNat c.val).toNat = c.val := by
    rw [UInt8.toNat_ofNat', Nat.mod_eq_of_lt (h c hc)]
  rw [Function.comp_apply, hbyte, CodePoint.ofNat, dif_pos c.isLt, id]

end Bytes

namespace ImageSize

theorem isEmpty_iff {size : ImageSize} : size.isEmpty = true ↔ size.width * size.height = 0 := by
  rw [isEmpty, Bool.or_eq_true, decide_eq_true_iff, decide_eq_true_iff, Nat.mul_eq_zero]

theorem accept_eq (size : ImageSize) :
    size.accept =
      if size.width * size.height = 0 then .error .unlike
      else if pixelLimit < size.width * size.height then
        .error (.tooManyPixels (.int ↑(size.width * size.height)))
      else .ok size := by
  rw [accept]
  by_cases h : size.width * size.height = 0
  · rw [if_pos (isEmpty_iff.mpr h), if_pos h]
  · obtain ⟨hwidth, hheight⟩ := Nat.mul_ne_zero_iff.mp h
    have hpixels : size.pixels = size.width * size.height := by
      rw [pixels, Nat.max_eq_right (Nat.pos_of_ne_zero hwidth),
        Nat.max_eq_right (Nat.pos_of_ne_zero hheight)]
    rw [if_neg (mt isEmpty_iff.mp h), if_neg h, check, hpixels]
    split <;> rfl

end ImageSize

namespace Png

/-- A chunk as it is written: the length of its data, its name, its data and the checksum. -/
def chunk (name : Text) (data : Bytes) : Bytes :=
  Bytes.ofBig (UInt32.ofNat data.length) ++ (Bytes.ofLatin name ++ (data
    ++ Bytes.ofBig (Crc32.checksum (Bytes.ofLatin name ++ data))))

variable {name : Text} {data rest : Bytes} {h : PngHeader}

theorem latin_ofLatin_name (hname : isName name = true) :
    Bytes.latin (Bytes.ofLatin name) = name := by
  refine Bytes.latin_ofLatin fun c hc => ?_
  have hc := List.all_eq_true.mp hname c hc
  rcases Bool.or_eq_true_iff.mp hc with hc | hc
  · simp only [CodePoint.isAlphanum, CodePoint.isDigit, CodePoint.isLower, CodePoint.isUpper,
      Bool.or_eq_true, Bool.and_eq_true, decide_eq_true_eq] at hc
    omega
  · rw [of_decide_eq_true hc]
    decide

theorem chunkStart?_append (length : UInt32) (hname : isName name = true)
    (hfour : name.length = 4) :
    chunkStart? (Bytes.ofBig length ++ (Bytes.ofLatin name ++ rest)) =
      some (length.toNat, name, rest) := by
  have hlatin := latin_ofLatin_name hname
  have hbig := Bytes.big_ofBig length
  match name, hfour with
  | [a, b, c, d], _ =>
    simp only [Bytes.ofLatin, List.map_cons, List.map_nil] at hlatin
    simp only [Bytes.ofBig] at hbig
    simp only [Bytes.ofBig, Bytes.ofLatin, List.map_cons, List.map_nil, List.cons_append,
      List.nil_append, chunkStart?, hlatin, hname, hbig, if_true]

theorem afterChecksum?_append :
    afterChecksum? name data
      (Bytes.ofBig (Crc32.checksum (Bytes.ofLatin name ++ data)) ++ rest) = some rest := by
  rw [afterChecksum?, Bytes.split?_append (Bytes.length_ofBig _)]
  simp

/-- A chunk ahead of the pixels is read as its name says. -/
theorem readHeader_chunk (fuel : Nat) (hname : isName name = true) (hfour : name.length = 4)
    (hkind : name ≠ endName ∧ name ≠ dataName ∧ name ≠ frameDataName)
    (hlength : data.length < 2 ^ 32) :
    readHeader (fuel + 1) h (chunk name data ++ rest) =
      (h.read name data >>= fun h => readHeader fuel h rest) := by
  obtain ⟨hend, hpixels, hframe⟩ := hkind
  have hnat : (UInt32.ofNat data.length).toNat = data.length := UInt32.toNat_ofNat_of_lt' hlength
  rw [readHeader, chunk]
  simp only [List.append_assoc, chunkStart?_append _ hname hfour, hnat, hend, hpixels, hframe,
    if_false, decide_false, Bool.false_and]
  rw [readChunk, Bytes.split?_append rfl, ImageFault.need]
  cases hread : h.read name data with
  | error e => simp [hread, bind, Except.bind]
  | ok h' =>
    simp [hread, afterChecksum?_append, ImageFault.need, bind, Except.bind, pure, Except.pure]

/-- What the first chunk of an image says: its size, the kind of its pixels, how they are packed
and in which order they come. -/
structure Preamble where
  width : UInt32
  height : UInt32
  depth : UInt8
  colours : UInt8
  packing : UInt8
  order : UInt8
  isKnown : (depth, colours) ∈ PngHeader.pixelKinds

/-- Where the pixels begin: the length that their chunk is said to have, its name, and whatever
follows. -/
def pixelStart (length : UInt32) (rest : Bytes) : Bytes :=
  Bytes.ofBig length ++ (Bytes.ofLatin dataName ++ rest)

namespace Preamble

variable (p : Preamble)

def size : ImageSize := ⟨p.width.toNat, p.height.toNat⟩

def content : Bytes :=
  Bytes.ofBig p.width ++ Bytes.ofBig p.height ++ [p.depth, p.colours, p.packing, 0, p.order]

/-- An image in which nothing stands ahead of the pixels but its size and their kind. -/
def file (pixels : Bytes) : Bytes := signature ++ (chunk "IHDR" p.content ++ pixels)

theorem read_content :
    h.read "IHDR" p.content = .ok { h with size := p.size, colours := some p.colours } := by
  have hwidth := Bytes.big_ofBig p.width
  have hheight := Bytes.big_ofBig p.height
  have hknown : PngHeader.pixelKinds.contains (p.depth, p.colours) = true :=
    List.contains_iff_mem.mpr p.isKnown
  simp only [Bytes.ofBig] at hwidth hheight
  change h.readImage p.content = _
  simp only [PngHeader.readImage, content, Bytes.ofBig, List.cons_append, List.nil_append, hwidth,
    hheight, hknown, if_true, size]

theorem readHeader_pixelStart (fuel : Nat) (length : UInt32) (hknown : h.colours.isSome = true) :
    readHeader (fuel + 1) h (pixelStart length rest) =
      .ok (h, .pixels (pixelStart length rest)) := by
  rw [readHeader, pixelStart, chunkStart?_append length (by decide) (by decide)]
  have hend : dataName ≠ endName := by decide
  simp [hknown, hend]

/-- The size decides unless it can be used; then the chunks have to be sound from the pixels on. -/
theorem read_file (length : UInt32) :
    read (p.file (pixelStart length rest)) =
      if p.size.width * p.size.height = 0 then .error .unlike
      else if ImageSize.pixelLimit < p.size.width * p.size.height then
        .error (.tooManyPixels (.int ↑(p.size.width * p.size.height)))
      else if isSound (pixelStart length rest).length (pixelStart length rest) then .ok p.size
      else .error .notPng := by
  have hdrop : (p.file (pixelStart length rest)).drop signature.length =
      chunk "IHDR" p.content ++ pixelStart length rest := by
    rw [file, List.drop_left]
  obtain ⟨fuel, hfuel⟩ : ∃ fuel,
      (chunk "IHDR" p.content ++ pixelStart length rest).length = fuel + 1 + 1 := ⟨_, rfl⟩
  have hlength : p.content.length < 2 ^ 32 := by simp [content]
  let h : PngHeader := { PngHeader.empty with size := p.size, colours := some p.colours }
  have hheader : readHeader (fuel + 1 + 1) .empty
      (chunk "IHDR" p.content ++ pixelStart length rest) =
        .ok (h, .pixels (pixelStart length rest)) := by
    rw [readHeader_chunk (fuel + 1) (by decide) (by decide) (by decide) hlength, read_content]
    have hknown : h.colours.isSome = true := rfl
    exact readHeader_pixelStart fuel length hknown
  have hsize : h.imageSize = p.size.accept := rfl
  rw [read, hdrop, hfuel, hheader]
  change (h.imageSize >>= _) = _
  rw [hsize, ImageSize.accept_eq]
  split
  next => rfl
  next =>
    split
    next => rfl
    next => rfl

end Preamble

/-- The faults of what begins as a PNG image. -/
inductive IsFault : ImageFault → Prop where
  | unlike : IsFault .unlike
  | notPng : IsFault .notPng
  | truncated (chunk : Text) : IsFault (.truncated chunk)
  | truncatedAnimation (chunk : Text) : IsFault (.truncatedAnimation chunk)
  | largeText : IsFault .largeText
  | tooMuchText {size : Nat} : PngHeader.allTextLimit < size → IsFault (.tooMuchText size)
  | noData : IsFault .noData
  | tooManyPixels {count : Nat} :
      ImageSize.pixelLimit < count → IsFault (.tooManyPixels (.int count))

/-- Every fault of a reader is one of these. -/
def Faults {α : Type} (r : Except ImageFault α) : Prop := ∀ e, r = .error e → IsFault e

namespace Faults

variable {α β : Type}

theorem ok (x : α) : Faults (.ok x : Except ImageFault α) := by
  intro e he
  cases he

theorem error {e : ImageFault} (h : IsFault e) : Faults (.error e : Except ImageFault α) := by
  intro f hf
  cases hf
  exact h

theorem bind {r : Except ImageFault α} {f : α → Except ImageFault β} (h : Faults r)
    (hf : ∀ x, Faults (f x)) : Faults (r >>= f) := by
  intro e he
  cases r with
  | ok x => exact hf x e he
  | error fault => exact h e (congrArg Except.error (Except.error.inj he))

theorem map {r : Except ImageFault α} {f : α → β} (h : Faults r) : Faults (r.map f) := by
  intro e he
  cases r with
  | ok x => cases he
  | error fault => exact h e (congrArg Except.error (Except.error.inj he))

theorem need (x : Option α) : Faults (ImageFault.need x) := by
  cases x with
  | none => exact error .notPng
  | some x => exact ok x

end Faults

theorem faults_accept (size : ImageSize) : Faults size.accept := by
  rw [ImageSize.accept_eq]
  split
  next => exact .error .unlike
  next =>
    split
    next hlarge => exact .error (.tooManyPixels hlarge)
    next => exact .ok size

theorem faults_unpackText (packed : Bytes) : Faults (PngHeader.unpackText packed) := by
  rw [PngHeader.unpackText]
  split
  next => exact .ok _
  next => exact .ok _
  next => exact .error .largeText

theorem faults_countText (size : Nat) : Faults (h.countText size) := by
  rw [PngHeader.countText]
  split
  next hlarge => exact .error (.tooMuchText hlarge)
  next => exact .ok _

theorem faults_atLeast (length : Nat) : Faults (PngHeader.atLeast length name h data) := by
  rw [PngHeader.atLeast]
  split
  next => exact .error (.truncated name)
  next => exact .ok h

theorem faults_readImage : Faults (h.readImage data) := by
  rw [PngHeader.readImage.eq_def]
  split
  next =>
    split
    next => exact .ok _
    next => exact .error .notPng
  next => exact .error (.truncated _)

theorem faults_readProfile : Faults (h.readProfile data) := by
  rw [PngHeader.readProfile]
  split
  next => exact .error .notPng
  next packed _ => exact (faults_unpackText packed).map
  next => exact .error .notPng

theorem faults_readTransparency : Faults (h.readTransparency data) := by
  rw [PngHeader.readTransparency]
  split
  next => exact faults_atLeast 2
  next => exact faults_atLeast 6
  next => exact .ok h

theorem faults_readText : Faults (h.readText data) := by
  rw [PngHeader.readText]
  split
  next => exact .ok h
  next => exact faults_countText _
  next => exact .ok h

theorem faults_readPackedText : Faults (h.readPackedText data) := by
  simp only [PngHeader.readPackedText]
  split
  next =>
    refine (faults_unpackText _).bind fun text => ?_
    split
    next => exact .ok h
    next => exact faults_countText _
  next => exact .error .notPng

theorem faults_unpack (t : PngHeader.LanguageText) : Faults t.unpack := by
  rw [PngHeader.LanguageText.unpack]
  split
  next => exact .ok _
  next =>
    split
    next => exact (faults_unpackText _).map
    next => exact .ok _

theorem faults_readLanguageText : Faults (h.readLanguageText data) := by
  rw [PngHeader.readLanguageText]
  split
  next => exact .ok h
  next t _ =>
    refine (faults_unpack t).bind fun text => ?_
    split
    next => exact .ok h
    next =>
      split
      next => exact faults_countText _
      next => exact .ok h

theorem faults_readAnimation : Faults (h.readAnimation data) := by
  rw [PngHeader.readAnimation]
  split
  next => exact .error (.truncatedAnimation _)
  next => exact .ok h

theorem faults_readFrame : Faults (h.readFrame data) := by
  rw [PngHeader.readFrame]
  split
  next => exact .error (.truncatedAnimation _)
  next =>
    split
    next => exact .error .notPng
    next =>
      split
      next => exact .error .notPng
      next => exact .ok _

theorem faults_readFramePixels (length : Nat) : Faults (h.readFramePixels length rest) := by
  rw [PngHeader.readFramePixels]
  split
  next => exact .error (.truncatedAnimation _)
  next =>
    split
    next =>
      split
      next => exact .ok _
      next => exact .error .notPng
    next => exact .error .notPng

theorem faults_of_mem_readers {reader : PngHeader → Bytes → Except ImageFault PngHeader}
    (hreader : (name, reader) ∈ PngHeader.readers) : Faults (reader h data) := by
  simp only [PngHeader.readers, List.mem_cons, Prod.mk.injEq, List.not_mem_nil, or_false]
    at hreader
  rcases hreader with ⟨-, rfl⟩ | ⟨-, rfl⟩ | ⟨-, rfl⟩ | ⟨-, rfl⟩ | ⟨-, rfl⟩ | ⟨-, rfl⟩ | ⟨-, rfl⟩
    | ⟨-, rfl⟩ | ⟨-, rfl⟩ | ⟨-, rfl⟩ | ⟨-, rfl⟩ | ⟨-, rfl⟩
  · exact faults_readImage
  · exact faults_readProfile
  · exact faults_readTransparency
  · exact faults_atLeast 4
  · exact faults_atLeast 32
  · exact faults_atLeast 1
  · exact faults_atLeast 9
  · exact faults_readText
  · exact faults_readPackedText
  · exact faults_readLanguageText
  · exact faults_readAnimation
  · exact faults_readFrame

theorem faults_readData : Faults (h.read name data) := by
  rw [PngHeader.read]
  split
  next reader hreader =>
    obtain ⟨before, after, hsplit, -⟩ := List.lookup_eq_some_iff.mp hreader
    have hmem : (name, reader) ∈ PngHeader.readers := by simp [hsplit]
    exact faults_of_mem_readers hmem
  next => exact .ok h

theorem faults_readChunk (length : Nat) : Faults (readChunk h name length rest) := by
  rw [readChunk]
  refine (Faults.need _).bind fun ⟨data, rest⟩ => ?_
  exact faults_readData.bind fun h => (Faults.need _).bind fun rest => .ok (h, rest)

theorem faults_readHeader (fuel : Nat) (bytes : Bytes) : Faults (readHeader fuel h bytes) := by
  induction fuel generalizing h bytes with
  | zero => exact .error .notPng
  | succ fuel ih =>
    rw [readHeader]
    split
    next => exact .error .notPng
    next length name rest _ =>
      split
      next => exact .ok _
      next =>
        split
        next => exact .ok _
        next =>
          split
          next e he =>
            split at he
            next => exact .error (faults_readFramePixels length e he)
            next => cases he
          next h rest _ =>
            split
            next => exact .ok _
            next =>
              split
              next e he => exact .error (faults_readChunk length e he)
              next => exact ih _

theorem faults_imageSize : Faults h.imageSize := by
  rw [PngHeader.imageSize]
  refine .bind ?_ fun _ => faults_accept h.size
  rw [ImageFault.require]
  split
  next => exact .ok ()
  next => exact .error .notPng

/-- What begins as a PNG image has no other faults, whatever follows. -/
theorem faults_read (bytes : Bytes) : Faults (read bytes) := by
  rw [read]
  refine (faults_readHeader _ _).bind fun ⟨h, ending⟩ => faults_imageSize.bind fun size => ?_
  cases ending with
  | pixels bytes =>
    change Faults (if isSound bytes.length bytes then .ok size else .error .notPng)
    split
    next => exact .ok size
    next => exact .error .notPng
  | framePixels => exact .error .notPng
  | nothing => exact .error .noData

end Png

end Replay
