import CcbCore.Edge.Admission

/-!
# What a batch stands for

`estimatedBase64Size` of a text that `atob` reads is no less than the bytes that are read,
and is their number when no whitespace is in the text: whitespace can only add to the
length, and hide padding. So the files of a batch that is within the running total have no
more bytes together than the limit (`estimate_bounds`).
-/

namespace CcbCore.Edge

open CcbCore.JavaScript CcbCore.Raising
open CcbCore.Python (endsWith)

variable {base64 : String} {bytes : List UInt8} {files : List SourceFile} {contents : List (List UInt8)}

theorem base64Bytes_ok : base64Bytes base64 = .ok bytes ↔ Base64.atob base64.toList = some bytes := by
  unfold base64Bytes
  cases Base64.atob base64.toList <;> simp

/-- The estimate of a text in ASCII. -/
theorem estimatedBase64Size_ascii (h : ∀ c ∈ base64.toList, c.val < 0x80) :
    estimatedBase64Size base64 =
      if base64.toList.length = 0 then 0 else (base64.toList.length * 3 / 4 : ℕ) - (Base64.endPadding base64.toList : ℤ) := by
  have hpadding : (if endsWith base64 "==" then 2 else if endsWith base64 "=" then 1 else 0 : ℤ) =
      Base64.endPadding base64.toList := by
    have hone : endsWith base64 "=" = ['='].isSuffixOf base64.toList := rfl
    have htwo : endsWith base64 "==" = ['=', '='].isSuffixOf base64.toList := rfl
    rw [hone, htwo, Base64.endPadding]
    split_ifs <;> rfl
  unfold estimatedBase64Size
  simp only [utf16Length_ascii h, hpadding]

/-- **The estimate is the bytes that are read, or more for whitespace.** -/
theorem estimate_le (h : base64Bytes base64 = .ok bytes) : (bytes.length : ℤ) ≤ estimatedBase64Size base64 := by
  rw [base64Bytes_ok] at h
  have hbytes := Base64.atob_length h
  have hpadding := Base64.endPadding_le_ink base64.toList
  have hshort : (Base64.ink base64.toList).length ≤ base64.toList.length := List.length_filter_le _ _
  rw [estimatedBase64Size_ascii (Base64.atob_ascii h)]
  split_ifs with hempty
  · omega
  · omega

theorem estimate_eq (h : base64Bytes base64 = .ok bytes) (hwhite : ∀ c ∈ base64.toList, Base64.isAsciiWhite c = false) :
    (bytes.length : ℤ) = estimatedBase64Size base64 := by
  rw [base64Bytes_ok] at h
  have hbytes := Base64.atob_length h
  have hink : Base64.ink base64.toList = base64.toList := List.filter_eq_self.mpr fun c hc => by rw [hwhite c hc]; rfl
  rw [hink] at hbytes
  rw [estimatedBase64Size_ascii (Base64.atob_ascii h)]
  split_ifs with hempty
  · omega
  · omega

/-- The bytes of some files are no more than their estimates. -/
theorem sum_estimates (h : files.mapM (fun file => base64Bytes file.contentBase64) = .ok contents) :
    ((contents.map List.length).sum : ℤ) ≤ (files.map fun file => estimatedBase64Size file.contentBase64).sum := by
  replace h := forall₂_of_mapM_ok h
  induction h with
  | nil => rfl
  | cons hbytes _ ih =>
    have hhead := estimate_le hbytes
    simp only [List.map_cons, List.sum_cons, Int.natCast_add] at ih ⊢
    omega

/-- **The estimate of a content that is read is no less than its bytes, and is their number
when it has no whitespace; so a batch that the running total admits, and whose contents are
read, has no more bytes than the limit.** -/
theorem estimate_bounds :
    (∀ base64 bytes, base64Bytes base64 = .ok bytes →
      (bytes.length : ℤ) ≤ estimatedBase64Size base64 ∧
      ((∀ c ∈ base64.toList, Base64.isAsciiWhite c = false) → (bytes.length : ℤ) = estimatedBase64Size base64)) ∧
    ∀ files contents, boundBatch 0 files = .ok () → files.mapM (fun file => base64Bytes file.contentBase64) = .ok contents →
      (contents.map List.length).sum ≤ maxBatchBytes := by
  refine ⟨fun base64 bytes h => ⟨estimate_le h, estimate_eq h⟩, fun files contents hadmitted hcontents => ?_⟩
  have hsizes : ∀ file ∈ files, 0 ≤ estimatedBase64Size file.contentBase64 := by
    intro file hfile
    obtain ⟨bytes, -, hbytes⟩ := exists_of_mapM_ok hcontents hfile
    exact (Int.natCast_nonneg _).trans (estimate_le hbytes)
  have htotal := (boundBatch_ok (Int.natCast_nonneg _) hsizes).mp hadmitted
  have hsum := sum_estimates hcontents
  rw [zero_add] at htotal
  exact_mod_cast hsum.trans htotal

/-- A byte with its padding apart, and one without padding. -/
def sampleContents : List SourceFile :=
  [⟨"messages/1.md", "c", "t", "b", "QQ= ="⟩, ⟨"messages/2.md", "c", "t", "b", "Qg"⟩]

theorem estimate_bounds_sample : (1 : ℤ) ≤ estimatedBase64Size "QQ= =" ∧ (1 : ℤ) = estimatedBase64Size "Qg" ∧ 1 + 1 ≤ maxBatchBytes := by
  have hadmitted : boundBatch 0 sampleContents = .ok () := by decide +kernel
  have hwhite : ("Qg".toList.all fun c => !Base64.isAsciiWhite c) = true := by decide +kernel
  have hink : ∀ c ∈ "Qg".toList, Base64.isAsciiWhite c = false := by simpa using List.all_eq_true.mp hwhite
  exact ⟨(estimate_bounds.1 "QQ= =" [65] (by decide +kernel)).1, (estimate_bounds.1 "Qg" [66] (by decide +kernel)).2 hink,
    estimate_bounds.2 sampleContents [[65], [66]] hadmitted (by decide +kernel)⟩

end CcbCore.Edge
