/-
# The ric-ID of a setup response

The id of the RIC is configured as a hexadecimal number, and the response to an E2 setup
request carries it as a string of twenty bits.  `convertTo20BitString` pads the binary
digits of the number up to twenty, and cuts what is longer from the right: a number of
twenty bits or less is the one the string denotes (`encoded_iff_fits`), and of a longer
one only the first twenty digits are left, so that numbers are no longer told apart.
-/

import NearRtRic.E2Manager.Handlers
import Mathlib.Data.List.Induction

namespace NearRtRic.E2Manager

open Effect

/-- The number that a configured id stands for, if `strconv.ParseUint` accepts it. -/
def ricIdValue (ricNearRtId : String) : Option Nat := parseUint ricNearRtId 16 32

/-- The string of an accepted id has twenty binary digits, and denotes its number. -/
def RicIdEncoded (ricNearRtId : String) : Prop :=
  ∀ bits, convertTo20BitString ricNearRtId = .ok bits →
    bits.toList.length = 20 ∧ (∀ c ∈ bits.toList, c = '0' ∨ c = '1') ∧
      ricIdValue ricNearRtId = some (Nat.ofDigitChars 2 bits.toList 0)

/-- The number of an accepted id has twenty bits. -/
def RicIdFits (ricNearRtId : String) : Prop := ∀ v, ricIdValue ricNearRtId = some v → v < 2 ^ 20

/-- The ric-IDs in a response. -/
def ricIDs : E2SetupResponseMessage → List String
  | .successfulOutcome ies => ies.filterMap fun ie =>
      match ie.value with
      | .globalRICID _ ricID => some ricID
      | _ => none
  | .unsuccessfulOutcome _ => []

/-- The response that a configuration gives to a request. -/
def setupResponse (config : Configuration) (request : E2SetupRequestMessage) :
    Option E2SetupResponseMessage :=
  match convertTo20BitString config.ricNearRtId with
  | .error _ => none
  | .ok ricNearRtId => newE2SetupSuccessResponseMessage config.plmnId ricNearRtId request

variable {ricNearRtId bits : String} {config : Configuration} {m : E2SetupRequestMessage}

/-! ### Binary digits -/

/-- The digits to base 2 are zeros and ones. -/
theorem binary_of_mem_toDigits {n : Nat} {c : Char} (h : c ∈ Nat.toDigits 2 n) :
    c = '0' ∨ c = '1' := by
  induction n using Nat.strongRecOn with
  | _ n ih =>
      have hdigit : ∀ d < 2, Nat.digitChar d = '0' ∨ Nat.digitChar d = '1' := by decide
      rw [Nat.toDigits_eq_if (by decide)] at h
      split at h
      · rename_i hlt
        rw [List.mem_singleton.1 h]
        exact hdigit n hlt
      · rcases List.mem_append.1 h with h | h
        · exact ih (n / 2) (by omega) h
        · rw [List.mem_singleton.1 h]
          exact hdigit (n % 2) (by omega)

/-- Binary digits denote a number below two to their length. -/
theorem ofDigitChars_lt {l : List Char} (h : ∀ c ∈ l, c = '0' ∨ c = '1') :
    Nat.ofDigitChars 2 l 0 < 2 ^ l.length := by
  induction l using List.reverseRecOn with
  | nil => decide
  | append_singleton l c ih =>
      have hl := ih fun c hc => h c (List.mem_append_left _ hc)
      rw [Nat.ofDigitChars_append, List.length_append, List.length_singleton, Nat.pow_succ,
        Nat.ofDigitChars_cons, Nat.ofDigitChars_nil]
      rcases h c (by simp) with rfl | rfl
      · show 2 * Nat.ofDigitChars 2 l 0 + 0 < _
        omega
      · show 2 * Nat.ofDigitChars 2 l 0 + 1 < _
        omega

/-- What an accepted id is converted to. -/
theorem convertTo20BitString_eq_ok :
    convertTo20BitString ricNearRtId = .ok bits ↔ ∃ v, ricIdValue ricNearRtId = some v ∧
      bits.toList = (List.replicate (20 - (Nat.toDigits 2 v).length) '0' ++
        Nat.toDigits 2 v).take 20 := by
  unfold convertTo20BitString ricIdValue
  cases parseUint ricNearRtId 16 32 with
  | none => simp
  | some v =>
      dsimp only
      constructor
      · intro h
        rw [← Except.ok.inj h]
        exact ⟨v, rfl, String.toList_ofList⟩
      · rintro ⟨w, hw, hbits⟩
        obtain rfl := Option.some.inj hw
        rw [← hbits, String.ofList_toList]

/-- The string of an accepted id has twenty binary digits. -/
theorem digits_of_convertTo20BitString (h : convertTo20BitString ricNearRtId = .ok bits) :
    bits.toList.length = 20 ∧ ∀ c ∈ bits.toList, c = '0' ∨ c = '1' := by
  obtain ⟨v, -, hbits⟩ := convertTo20BitString_eq_ok.1 h
  rw [hbits]
  constructor
  · rw [List.length_take, List.length_append, List.length_replicate]
    omega
  · intro c hc
    rcases List.mem_append.1 (List.mem_of_mem_take hc) with hc | hc
    · exact .inl (List.eq_of_mem_replicate hc)
    · exact binary_of_mem_toDigits hc

/-- A number of twenty bits is the one that its string denotes. -/
theorem value_of_convertTo20BitString {v : Nat} (hv : ricIdValue ricNearRtId = some v)
    (hlt : v < 2 ^ 20) (h : convertTo20BitString ricNearRtId = .ok bits) :
    Nat.ofDigitChars 2 bits.toList 0 = v := by
  obtain ⟨w, hw, hbits⟩ := convertTo20BitString_eq_ok.1 h
  obtain rfl := Option.some.inj (hv.symm.trans hw)
  have hlen : (Nat.toDigits 2 v).length ≤ 20 :=
    (Nat.length_toDigits_le_iff (by decide) (by decide)).2 hlt
  rw [hbits, List.take_of_length_le, Nat.ofDigitChars_append, Nat.ofDigitChars_replicate_zero,
    Nat.mul_zero, Nat.ofDigitChars_toDigits (by decide) (by decide)]
  rw [List.length_append, List.length_replicate]
  omega

/-- **An id is encoded faithfully exactly where its number has twenty bits**: what twenty
digits denote is below two to the twentieth. -/
theorem encoded_iff_fits (ricNearRtId : String) :
    RicIdEncoded ricNearRtId ↔ RicIdFits ricNearRtId := by
  constructor
  · intro h v hv
    obtain ⟨bits, hbits⟩ : ∃ bits, convertTo20BitString ricNearRtId = .ok bits :=
      ⟨_, convertTo20BitString_eq_ok.2 ⟨v, hv, String.toList_ofList⟩⟩
    obtain ⟨hlen, hbinary, hvalue⟩ := h bits hbits
    obtain rfl := Option.some.inj (hv.symm.trans hvalue)
    have hlt := ofDigitChars_lt hbinary
    rwa [hlen] at hlt
  · intro h bits hbits
    obtain ⟨hlen, hbinary⟩ := digits_of_convertTo20BitString hbits
    obtain ⟨v, hv, -⟩ := convertTo20BitString_eq_ok.1 hbits
    exact ⟨hlen, hbinary, by rw [value_of_convertTo20BitString hv (h v hv) hbits, hv]⟩

/-! ### The ric-ID of a response -/

/-- The answer carries the RIC id it was built with, once. -/
theorem ricIDs_successResponse {plmnId ricId : String} {response : E2SetupResponseMessage}
    (h : newE2SetupSuccessResponseMessage plmnId ricId m = some response) :
    ricIDs response = [ricId] := by
  unfold newE2SetupSuccessResponseMessage at h
  match hm : m.e2setupRequestIEs with
  | [] =>
      rw [hm] at h
      cases h
  | [_] =>
      rw [hm] at h
      obtain rfl := Option.some.inj h
      rfl
  | _ :: _ :: rest =>
      rw [hm] at h
      obtain rfl := Option.some.inj h
      simp [ricIDs]

/-- So what the manager answers carries the string of its configured id. -/
theorem ricIDs_setupResponse {response : E2SetupResponseMessage}
    (h : setupResponse config m = some response) :
    ∃ bits, convertTo20BitString config.ricNearRtId = .ok bits ∧ ricIDs response = [bits] := by
  unfold setupResponse at h
  cases hconvert : convertTo20BitString config.ricNearRtId with
  | error e =>
      rw [hconvert] at h
      cases h
  | ok bits =>
      rw [hconvert] at h
      exact ⟨bits, rfl, ricIDs_successResponse h⟩

/-- The response is what `handleSuccessfulResponse` sends, and it makes no other call. -/
theorem calls_handleSuccessfulResponse_setupResponse (config : Configuration) (ranName : String)
    (req : NotificationRequest) (m : E2SetupRequestMessage) :
    (E2SetupRequestNotificationHandler.handleSuccessfulResponse config ranName req m).Calls
      fun c : Call => ∃ response, setupResponse config m = some response ∧
        c = .send { msgType := .RIC_E2_SETUP_RESP, ranName, payload := .e2SetupResponse response,
                    xAction := req.transactionId } := by
  unfold E2SetupRequestNotificationHandler.handleSuccessfulResponse setupResponse
  cases convertTo20BitString config.ricNearRtId with
  | error e => trivial
  | ok ricNearRtId =>
      dsimp only
      cases newE2SetupSuccessResponseMessage config.plmnId ricNearRtId m with
      | none => trivial
      | some response => exact ⟨⟨response, rfl, rfl⟩, fun _ => trivial⟩

/-- **The ric-ID denotes the configured id** exactly where that has twenty bits; and RICs whose
ids have, and differ, send different ric-IDs. -/
theorem encoded_iff_fits_and_ricIDs_ne (config : Configuration) :
    (RicIdEncoded config.ricNearRtId ↔ RicIdFits config.ricNearRtId) ∧
      ∀ (other : Configuration) (m m' : E2SetupRequestMessage)
        (response response' : E2SetupResponseMessage),
        RicIdFits config.ricNearRtId → RicIdFits other.ricNearRtId →
        setupResponse config m = some response → setupResponse other m' = some response' →
        ricIdValue config.ricNearRtId ≠ ricIdValue other.ricNearRtId →
        ricIDs response ≠ ricIDs response' := by
  refine ⟨encoded_iff_fits _, fun other m m' response response' hfits hfits' hr hr' hne heq => ?_⟩
  obtain ⟨bits, hbits, hid⟩ := ricIDs_setupResponse hr
  obtain ⟨bits', hbits', hid'⟩ := ricIDs_setupResponse hr'
  obtain ⟨-, -, hvalue⟩ := (encoded_iff_fits _).2 hfits bits hbits
  obtain ⟨-, -, hvalue'⟩ := (encoded_iff_fits _).2 hfits' bits' hbits'
  rw [hid, hid'] at heq
  obtain rfl := (List.cons.inj heq).1
  exact hne (hvalue.trans hvalue'.symm)

/-- **The id of the shipped configuration** has 23 bits: its string denotes another number,
and is the string of the next id too. -/
theorem not_encoded_556670 :
    ¬ RicIdEncoded "556670" ∧
      convertTo20BitString "556670" = .ok "10101010110011001110" ∧
      convertTo20BitString "556671" = .ok "10101010110011001110" ∧
      ricIdValue "556670" ≠ ricIdValue "556671" := by
  have hbits : convertTo20BitString "556670" = .ok "10101010110011001110" := by decide +kernel
  refine ⟨fun h => ?_, hbits, by decide +kernel, by decide +kernel⟩
  obtain ⟨-, -, hvalue⟩ := h _ hbits
  revert hvalue
  decide +kernel

end NearRtRic.E2Manager
