import Replay.Capture
import Replay.Proofs.Base64Canonical
import Replay.Proofs.Outcome
import Replay.Proofs.Trim

namespace Replay

namespace Capture

variable {most : Int} {encoded : Text} {bytes : Bytes} {size : ImageSize}

theorem isCandidate_iff :
    isCandidate encoded = true ↔
      encoded ≠ [] ∧ encoded.length % 4 = 0 ∧ Base64.isFormed encoded = true := by
  cases encoded <;> simp [isCandidate]

theorem isCandidate_of_isCanonical (h : Base64.IsCanonical bytes encoded) (hne : bytes ≠ []) :
    isCandidate encoded = true := by
  have hdecode := h.decode?_eq
  obtain ⟨values, pads, hspells, -⟩ := h
  refine isCandidate_iff.mpr ⟨?_, hspells.groups, hspells.isFormed⟩
  rintro rfl
  exact hne (Option.some.inj hdecode).symm

/-- The bytes of a canonical text are refused for their number or checked as an image. -/
theorem decodeBody_of_isCanonical (h : Base64.IsCanonical bytes encoded) (hne : bytes ≠ []) :
    decodeBody most encoded =
      if most < bytes.length then .error (tooLarge most bytes.length)
      else (checkImage bytes).map fun size => (bytes, size) := by
  have hcandidate := isCandidate_of_isCanonical h hne
  have hdigits : Base64.isEncoding encoded bytes = true := by
    rw [Base64.isCanonical_iff.mp h, Base64.isEncoding, decide_eq_true_iff]
  simp only [decodeBody, hcandidate, h.decode?_eq, hdigits, List.isEmpty_iff, hne, if_true,
    if_false, Bool.not_true, Bool.false_eq_true]
  cases checkImage bytes <;> rfl

theorem tooLarge_ne_image (most : Int) (size : Nat) (e : ImageFault) :
    tooLarge most size ≠ .image e := by
  rw [tooLarge]
  split <;> intro h <;> cases h

/-- Only canonical texts of some bytes get as far as the check of images. -/
theorem exists_isCanonical (h : ∀ f, decodeBody most encoded = .error f → ∃ e, f = .image e) :
    ∃ bytes, Base64.IsCanonical bytes encoded ∧ bytes ≠ [] ∧ bytes.length ≤ most := by
  have hown (h : ∀ f, (.error (.capture .notPng) : Except CaptureFailure (Bytes × ImageSize)) =
      .error f → ∃ e, f = .image e) : False := by
    obtain ⟨e, he⟩ := h _ rfl
    cases he
  rw [decodeBody] at h
  split at h
  next hcandidate =>
    obtain ⟨-, hgroups, hform⟩ := isCandidate_iff.mp hcandidate
    split at h
    next => exact (hown h).elim
    next bytes hdecode =>
      split at h
      next => exact (hown h).elim
      next hempty =>
        split at h
        next =>
          obtain ⟨e, he⟩ := h _ rfl
          exact absurd he (tooLarge_ne_image _ _ _)
        next hsize =>
          split at h
          next => exact (hown h).elim
          next hdigits =>
            have hcanonical := Base64.isCanonical_of_isEncoding hform hgroups
              (by simpa using hdigits)
            exact ⟨bytes, hcanonical, by simpa using hempty, Int.not_lt.mp hsize⟩
  next => exact (hown h).elim

/-- What is decoded is canonical, and what is canonical is decoded if its image is accepted. -/
theorem decodeBody_eq_ok_iff :
    decodeBody most encoded = .ok (bytes, size) ↔
      Base64.IsCanonical bytes encoded ∧ bytes ≠ [] ∧ bytes.length ≤ most ∧
        checkImage bytes = .ok size := by
  constructor
  · intro h
    obtain ⟨found, hcanonical, hne, hsize⟩ :=
      exists_isCanonical fun f hf => absurd (h.symm.trans hf) (by simp)
    rw [decodeBody_of_isCanonical hcanonical hne, if_neg (Int.not_lt.mpr hsize)] at h
    cases himage : checkImage found with
    | ok size' =>
      rw [himage] at h
      cases h
      exact ⟨hcanonical, hne, hsize, himage⟩
    | error e =>
      rw [himage] at h
      cases h
  · rintro ⟨hcanonical, hne, hsize, himage⟩
    rw [decodeBody_of_isCanonical hcanonical hne, if_neg (Int.not_lt.mpr hsize), himage]
    rfl

/-- An image that is accepted has no more pixels than the limit. -/
theorem pixels_le_of_checkImage (h : checkImage bytes = .ok size) :
    size.pixels ≤ ImageSize.pixelLimit := by
  have hread : Png.read bytes = .ok size := by
    unfold checkImage Picture.check at h
    split at h
    next heq =>
      cases h
      split at heq
      next => exact heq
      next => cases heq
    all_goals cases h
  obtain ⟨_, -, h⟩ := bind_eq_ok_iff.mp hread
  obtain ⟨size', haccept, h⟩ := bind_eq_ok_iff.mp h
  obtain rfl : size' = size := by
    split at h
    next =>
      split at h
      · exact Except.ok.inj h
      · cases h
    all_goals cases h
  obtain ⟨_, -, haccept⟩ := bind_eq_ok_iff.mp haccept
  rw [ImageSize.accept] at haccept
  split at haccept
  next => cases haccept
  next =>
    obtain ⟨_, hcheck, rfl⟩ := map_eq_ok_iff.mp haccept
    rw [ImageSize.check] at hcheck
    split at hcheck
    next => cases hcheck
    next hle => exact Nat.not_lt.mp hle

theorem pixels_le_of_decode {image : Json} (h : decode most image = .ok (bytes, size)) :
    size.pixels ≤ ImageSize.pixelLimit := by
  unfold decode at h
  split at h
  next =>
    split at h
    next => exact pixels_le_of_checkImage (decodeBody_eq_ok_iff.mp h).2.2.2
    next => cases h
  next => cases h

/-- An image is decoded from exactly the texts that are, apart from white space, the start of a
PNG data URL and the canonical text of its bytes, if there are some, not too many, and they pass
the check of images. All texts that get as far as the decoder have bytes. -/
theorem decode_eq_ok_iff (most : Int) (t : Text) (bytes : Bytes) (size : ImageSize) :
    (decode most (.text t) = .ok (bytes, size) ↔
      ∃ body, t.trim = ("data:image/png;base64," : Text) ++ body ∧
        Base64.IsCanonical bytes (body.filter fun c => !c.isBlank) ∧ bytes ≠ [] ∧
        bytes.length ≤ most ∧ checkImage bytes = .ok size) ∧
    ∀ encoded, isCandidate encoded = true →
      ∃ decoded, Base64.decode? encoded = some decoded ∧ decoded ≠ [] := by
  constructor
  · have hurl : ∀ body, urlBody? t = some body ↔
        t.trim = ("data:image/png;base64," : Text) ++ body :=
      fun body => Text.stripStart?_eq_some_iff
    constructor
    · intro h
      rw [decode] at h
      split at h
      next body hbody => exact ⟨body, (hurl body).mp hbody, decodeBody_eq_ok_iff.mp h⟩
      next => cases h
    · rintro ⟨body, hbody, hrest⟩
      rw [decode, (hurl body).mpr hbody]
      exact decodeBody_eq_ok_iff.mpr hrest
  · intro encoded hcandidate
    obtain ⟨hne, hgroups, hform⟩ := isCandidate_iff.mp hcandidate
    exact Base64.exists_decode?_eq hne hform hgroups

end Capture

end Replay
