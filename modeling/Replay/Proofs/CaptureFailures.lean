import Replay.Proofs.CaptureDecoding
import Replay.Proofs.PngFiles
import Replay.Proofs.Trim

namespace Replay

theorem Picture.check_of_isPng {bytes : Bytes} (h : isPng bytes = true) :
    check bytes = Png.read bytes := by
  rw [check, if_pos h]

theorem Png.Preamble.isPng_file (p : Preamble) (pixels : Bytes) :
    Picture.isPng (p.file pixels) = true :=
  List.isPrefixOf_iff_prefix.mpr (List.prefix_append _ _)

theorem Number.isShort_iff {n : Int} :
    (Number.int n).isShort = true ↔ n.natAbs < 10 ^ digitLimit := by
  rw [Number.isShort, decide_eq_true_eq]

namespace Capture

variable {most : Int} {encoded t body : Text} {bytes : Bytes} {e : ImageFault}

theorem urlBody?_eq_some_iff :
    urlBody? t = some body ↔ t.trim = ("data:image/png;base64," : Text) ++ body :=
  Text.stripStart?_eq_some_iff

theorem checkImage_eq_image_iff :
    checkImage bytes = .error (.image e) ↔
      Picture.check bytes = .error e ∧ e ≠ .notPng ∧ e ≠ .unlike := by
  rw [checkImage]
  split
  next size h => simp [h]
  next h =>
    simp only [h, Except.error.injEq, reduceCtorEq, false_iff]
    rintro ⟨rfl, hne, -⟩
    exact hne rfl
  next h =>
    simp only [h, Except.error.injEq, reduceCtorEq, false_iff]
    rintro ⟨rfl, -, hne⟩
    exact hne rfl
  next fault hpng hlike h =>
    simp only [h, Except.error.injEq, CaptureFailure.image.injEq]
    constructor
    · rintro rfl
      exact ⟨rfl, fun he => hpng he, fun he => hlike he⟩
    · exact fun h => h.1

theorem checkImage_ne_number {n : NumberError} : checkImage bytes ≠ .error (.number n) := by
  rw [checkImage]
  split <;> intro h <;> cases h

/-- An image that begins with its size and goes on with pixels is judged by its size first. -/
theorem checkImage_file (p : Png.Preamble) (length : UInt32) (rest : Bytes) :
    checkImage (p.file (Png.pixelStart length rest)) =
      if p.size.width * p.size.height = 0 then .error (.capture .notPng)
      else if ImageSize.pixelLimit < p.size.width * p.size.height then
        .error (.image (.tooManyPixels (.int ↑(p.size.width * p.size.height))))
      else if Png.isSound (Png.pixelStart length rest).length (Png.pixelStart length rest) then
        .ok p.size
      else .error (.capture .notPng) := by
  rw [checkImage, Picture.check_of_isPng (p.isPng_file _), p.read_file]
  split_ifs <;> rfl

theorem decodeBody_eq_image_iff :
    decodeBody most encoded = .error (.image e) ↔
      ∃ bytes, Base64.IsCanonical bytes encoded ∧ bytes ≠ [] ∧ bytes.length ≤ most ∧
        Picture.check bytes = .error e ∧ e ≠ .notPng ∧ e ≠ .unlike := by
  constructor
  · intro h
    obtain ⟨bytes, hcanonical, hne, hsize⟩ := exists_isCanonical fun f hf =>
      ⟨e, Except.error.inj (hf.symm.trans h)⟩
    refine ⟨bytes, hcanonical, hne, hsize, checkImage_eq_image_iff.mp ?_⟩
    rw [decodeBody_of_isCanonical hcanonical hne, if_neg (Int.not_lt.mpr hsize)] at h
    cases himage : checkImage bytes with
    | ok size =>
      rw [himage] at h
      cases h
    | error failure =>
      rw [himage] at h
      exact congrArg Except.error (Except.error.inj h)
  · rintro ⟨bytes, hcanonical, hne, hsize, hfault⟩
    rw [decodeBody_of_isCanonical hcanonical hne, if_neg (Int.not_lt.mpr hsize),
      checkImage_eq_image_iff.mpr hfault]
    rfl

theorem tooLarge_eq_number_iff {size : Nat} {e : NumberError} :
    tooLarge most size = .number e ↔
      e = .tooManyDigits ∧ (10 ^ digitLimit ≤ most.natAbs ∨ 10 ^ digitLimit ≤ size) := by
  have hmost := Number.isShort_iff (n := most)
  have hsize := Number.isShort_iff (n := size)
  rw [Int.natAbs_natCast] at hsize
  rw [tooLarge, ← Nat.not_lt, ← Nat.not_lt, ← hmost, ← hsize]
  cases (Number.int most).isShort <;> cases (Number.int size).isShort <;> simp [eq_comm]

/-- A number without a text is met just where a size over the limit is to be told. -/
theorem decodeBody_eq_number_iff {e : NumberError} :
    decodeBody most encoded = .error (.number e) ↔
      e = .tooManyDigits ∧ ∃ bytes, isCandidate encoded = true ∧
        Base64.decode? encoded = some bytes ∧ most < bytes.length ∧
        (10 ^ digitLimit ≤ most.natAbs ∨ 10 ^ digitLimit ≤ bytes.length) := by
  constructor
  · intro h
    rw [decodeBody] at h
    split at h
    next hcandidate =>
      split at h
      next => cases h
      next bytes hdecode =>
        split at h
        next => cases h
        next =>
          split at h
          next hsize =>
            obtain ⟨he, hlong⟩ := tooLarge_eq_number_iff.mp (Except.error.inj h)
            exact ⟨he, bytes, hcandidate, hdecode, hsize, hlong⟩
          next =>
            split at h
            next => cases h
            next =>
              split at h
              next => cases h
              next failure himage =>
                obtain rfl := Except.error.inj h
                exact absurd himage checkImage_ne_number
    next => cases h
  · rintro ⟨he, bytes, hcandidate, hdecode, hsize, hlong⟩
    obtain ⟨hne, hgroups, hform⟩ := isCandidate_iff.mp hcandidate
    obtain ⟨decoded, hdecoded, hbytes⟩ := Base64.exists_decode?_eq hne hform hgroups
    obtain rfl : decoded = bytes := Option.some.inj (hdecoded.symm.trans hdecode)
    rw [decodeBody, if_pos hcandidate, hdecode]
    simp only [List.isEmpty_iff, hbytes, if_false]
    rw [if_pos hsize, tooLarge_eq_number_iff.mpr ⟨he, hlong⟩]

/-- A failure that does not say that there is no PNG image is one of a text that is a PNG data
URL. -/
theorem decode_eq_error_iff {v : Json} {f : CaptureFailure} (hf : f ≠ .capture .notPng) :
    decode most v = .error f ↔
      ∃ t body, v = .text t ∧ t.trim = ("data:image/png;base64," : Text) ++ body ∧
        decodeBody most (body.filter fun c => !c.isBlank) = .error f := by
  constructor
  · intro h
    rw [decode.eq_def] at h
    split at h
    next t =>
      split at h
      next body hbody => exact ⟨t, body, rfl, urlBody?_eq_some_iff.mp hbody, h⟩
      next => exact absurd (Except.error.inj h).symm hf
    next => exact absurd (Except.error.inj h).symm hf
  · rintro ⟨t, body, rfl, hbody, h⟩
    rw [decode, urlBody?_eq_some_iff.mpr hbody]
    exact h

theorem decode_eq_image_iff {v : Json} :
    decode most v = .error (.image e) ↔
      ∃ t body bytes, v = .text t ∧ t.trim = ("data:image/png;base64," : Text) ++ body ∧
        Base64.IsCanonical bytes (body.filter fun c => !c.isBlank) ∧ bytes ≠ [] ∧
        bytes.length ≤ most ∧ Picture.check bytes = .error e ∧ e ≠ .notPng ∧ e ≠ .unlike := by
  rw [decode_eq_error_iff (by simp)]
  constructor
  · rintro ⟨t, body, rfl, hbody, h⟩
    obtain ⟨bytes, hbytes⟩ := decodeBody_eq_image_iff.mp h
    exact ⟨t, body, bytes, rfl, hbody, hbytes⟩
  · rintro ⟨t, body, bytes, rfl, hbody, hbytes⟩
    exact ⟨t, body, rfl, hbody, decodeBody_eq_image_iff.mpr ⟨bytes, hbytes⟩⟩

theorem decode_eq_number_iff {v : Json} {e : NumberError} :
    decode most v = .error (.number e) ↔
      e = .tooManyDigits ∧ ∃ t body bytes, v = .text t ∧
        t.trim = ("data:image/png;base64," : Text) ++ body ∧
        isCandidate (body.filter fun c => !c.isBlank) = true ∧
        Base64.decode? (body.filter fun c => !c.isBlank) = some bytes ∧ most < bytes.length ∧
        (10 ^ digitLimit ≤ most.natAbs ∨ 10 ^ digitLimit ≤ bytes.length) := by
  rw [decode_eq_error_iff (by simp)]
  constructor
  · rintro ⟨t, body, rfl, hbody, h⟩
    obtain ⟨he, bytes, hbytes⟩ := decodeBody_eq_number_iff.mp h
    exact ⟨he, t, body, bytes, rfl, hbody, hbytes⟩
  · rintro ⟨he, t, body, bytes, rfl, hbody, hbytes⟩
    exact ⟨t, body, rfl, hbody, decodeBody_eq_number_iff.mpr ⟨he, bytes, hbytes⟩⟩

/-- The data URL of some bytes is read as their canonical text. -/
theorem decode_url (most : Int) (bytes : Bytes) :
    decode most (.text (("data:image/png;base64," : Text) ++ Base64.encode bytes)) =
      decodeBody most (Base64.encode bytes) := by
  obtain ⟨values, pads, hspells, -⟩ := Base64.isCanonical_encode bytes
  have hdigits := hspells.isBlank_eq
  have htrim : (("data:image/png;base64," : Text) ++ Base64.encode bytes).trim =
      ("data:image/png;base64," : Text) ++ Base64.encode bytes := by
    refine Text.trim_of_not_isBlank fun c hc => ?_
    rcases List.mem_append.mp hc with hc | hc
    · exact (by decide : ∀ c ∈ ("data:image/png;base64," : Text), c.isBlank = false) c hc
    · exact hdigits c hc
  have hfilter : withoutBlanks (Base64.encode bytes) = Base64.encode bytes :=
    List.filter_eq_self.mpr fun c hc => by simp [hdigits c hc]
  rw [decode, urlBody?_eq_some_iff.mpr htrim]
  exact congrArg (decodeBody most) hfilter

/-- Decoding fails with another error than its own exactly for the canonical texts, of some bytes
and not too many, in which a fault other than those of no PNG image is found, and for texts of too
many bytes if that number or the limit is too long to be told. What begins as a PNG image has a few
such faults. It has that of too many pixels, whatever its pixels are, if its first chunk says
so. -/
theorem decode_faults (most : Int) :
    (∀ v e, decode most v = .error (.image e) ↔
      ∃ t body bytes, v = .text t ∧ t.trim = ("data:image/png;base64," : Text) ++ body ∧
        Base64.IsCanonical bytes (body.filter fun c => !c.isBlank) ∧ bytes ≠ [] ∧
        bytes.length ≤ most ∧ Picture.check bytes = .error e ∧ e ≠ .notPng ∧ e ≠ .unlike) ∧
    (∀ v e, decode most v = .error (.number e) ↔
      e = .tooManyDigits ∧ ∃ t body bytes, v = .text t ∧
        t.trim = ("data:image/png;base64," : Text) ++ body ∧
        isCandidate (body.filter fun c => !c.isBlank) = true ∧
        Base64.decode? (body.filter fun c => !c.isBlank) = some bytes ∧ most < bytes.length ∧
        (10 ^ digitLimit ≤ most.natAbs ∨ 10 ^ digitLimit ≤ bytes.length)) ∧
    (∀ bytes e, Picture.isPng bytes = true → Picture.check bytes = .error e → Png.IsFault e) ∧
    ∀ (p : Png.Preamble) (length : UInt32) (rest : Bytes),
      let pixels := Png.pixelStart length rest
      let bytes := p.file pixels
      let count := p.width.toNat * p.height.toNat
      decode most (.text (("data:image/png;base64," : Text) ++ Base64.encode bytes)) =
        if most < bytes.length then .error (tooLarge most bytes.length)
        else if count = 0 then .error (.capture .notPng)
        else if 178956970 < count then .error (.image (.tooManyPixels (.int count)))
        else if Png.isSound pixels.length pixels then .ok (bytes, p.size)
        else .error (.capture .notPng) := by
  refine ⟨fun v e => decode_eq_image_iff, fun v e => decode_eq_number_iff, ?_, ?_⟩
  · intro bytes e hpng h
    rw [Picture.check_of_isPng hpng] at h
    exact Png.faults_read bytes e h
  · intro p length rest pixels bytes count
    have hne : bytes ≠ [] := by simp [bytes, Png.Preamble.file, Png.signature]
    rw [decode_url, decodeBody_of_isCanonical (Base64.isCanonical_encode bytes) hne,
      checkImage_file]
    have hcount : p.size.width * p.size.height = count := rfl
    rw [hcount, ImageSize.pixelLimit]
    by_cases hsize : most < bytes.length
    · rw [if_pos hsize, if_pos hsize]
    · rw [if_neg hsize, if_neg hsize]
      split_ifs <;> rfl

example :
    decode byteLimit (.text ("data:image/png;base64,iVBORw0KGgoAAAANSUhEUgAATiAAAE4gCAIAAABsEtFu"
      ++ "AAAAC0lEQVR4nGNgQAYAAA4AAamRc7EAAAAASUVORK5CYII=")) =
        .error (.image (.tooManyPixels (.int (20000 * 20000)))) := by
  decide +kernel

end Capture

end Replay
