/-
# Kernel.Taxonomy -- which exceptions leave the intake

`service.py` turns every complaint about a request into a `ValidationError` and a drifted
replay into a `PayloadMismatch`; the HTTP layer answers these two and no other.  What escapes
is the plain `ValueError` of an integer conversion above the interpreter's digit limit: the
`except` clause around `to_units` names `AmountError` only, and nothing guards the text of a
foreign asset or of the amount that is hashed.

`validated_escapes_iff` says exactly when: the request passes the first two checks and then
meets such a conversion (`Convertible` fails).  Whatever is raised, the store is untouched.
Stack depth and memory are not modelled.
-/
import Sluice.Kernel.Money

namespace Sluice.Kernel

open Sluice.Theory

set_option autoImplicit false

/-- The request is an object with an id and an address that pass their checks. -/
structure Addressed (sha256 : Bytes → Bytes) (payload : Payload)
    (fields : List (String × Payload)) : Prop where
  object : payload = .dict fields
  named : ∃ id, uuidOfPayload (fields.lookup "operation_id") = some id
  addressed : ∃ toAddress, fields.lookup "to_address" = some (.str toAddress) ∧
    Address.isValid sha256 toAddress = true

/-- No conversion the request leads to is above the digit limit: not in the text of a foreign
asset, and for an amount of the right shape not in its integer part, in its fraction padded to
the token's places, nor, if it is within bounds, in the amount as a whole. -/
structure Convertible (cfg : Config) (fields : List (String × Payload)) : Prop where
  asset : ∀ asset, foreignAsset cfg.asset (fields.lookup "asset") = some asset →
    asset.printable = true
  amount : ∀ (text : String) (n : Decimal),
    foreignAsset cfg.asset (fields.lookup "asset") = none →
    fields.lookup "amount" = some (.str text) → n.text = strip text.toList →
    n.frac.length ≤ cfg.tokenDecimals →
    n.whole.length ≤ maxStrDigits ∧ cfg.tokenDecimals ≤ maxStrDigits ∧
      (cfg.minAmountUnits ≤ n.units cfg.tokenDecimals →
        n.units cfg.tokenDecimals ≤ cfg.maxAmountUnits →
        n.units cfg.tokenDecimals < 10 ^ maxStrDigits)

section Validated

variable {sha256 : Bytes → Bytes} {cfg : Config} {payload : Payload}
  {fields : List (String × Payload)}

theorem validated_unaddressed (other : ∀ fields, ¬ Addressed sha256 payload fields) :
    ∃ field complaint, validated sha256 cfg payload = .error (.validation field complaint) := by
  unfold validated
  split
  · rename_i fields
    split
    · exact ⟨_, _, rfl⟩
    · rename_i id named
      split
      · rename_i toAddress addressed
        split
        · exact ⟨_, _, rfl⟩
        · rename_i valid
          exact absurd ⟨rfl, ⟨id, named⟩, toAddress, addressed, by simpa using valid⟩ (other fields)
      · exact ⟨_, _, rfl⟩
  · exact ⟨_, _, rfl⟩

theorem validated_foreign (request : Addressed sha256 payload fields) {asset : Payload}
    (foreign : foreignAsset cfg.asset (fields.lookup "asset") = some asset) :
    validated sha256 cfg payload =
      if asset.printable then .error (.validation "asset" (.unsupportedAsset asset))
      else .error .valueError := by
  obtain ⟨rfl, ⟨id, named⟩, toAddress, addressed, valid⟩ := request
  simp only [validated, named, addressed, valid, foreign]
  rfl

theorem validated_amount (request : Addressed sha256 payload fields)
    (own : foreignAsset cfg.asset (fields.lookup "asset") = none) :
    (∃ e, toUnits ((fields.lookup "amount").getD .null) cfg.tokenDecimals = .error (.amount e) ∧
      validated sha256 cfg payload = .error (.validation "amount" (.amount e))) ∨
    (toUnits ((fields.lookup "amount").getD .null) cfg.tokenDecimals = .error .value ∧
      validated sha256 cfg payload = .error .valueError) ∨
    ∃ units, toUnits ((fields.lookup "amount").getD .null) cfg.tokenDecimals = .ok units ∧
      (validated sha256 cfg payload = .error .valueError ↔
        cfg.minAmountUnits ≤ units ∧ units ≤ cfg.maxAmountUnits ∧
          maxStrDigits < (Json.number units).length) := by
  obtain ⟨rfl, ⟨id, named⟩, toAddress, addressed, valid⟩ := request
  simp only [validated, named, addressed, valid, own]
  cases parsed : toUnits ((fields.lookup "amount").getD .null) cfg.tokenDecimals with
  | error failure =>
      cases failure with
      | amount e => exact .inl ⟨e, rfl, rfl⟩
      | value => exact .inr (.inl ⟨rfl, rfl⟩)
  | ok units =>
      refine .inr (.inr ⟨units, rfl, ?_⟩)
      by_cases floor : units < cfg.minAmountUnits
      · simp [floor]
      · by_cases ceiling : units > cfg.maxAmountUnits
        · simp [floor, ceiling]
        · by_cases long : (Json.number units).length > maxStrDigits
          · simp [floor, ceiling, long, not_lt.mp floor, not_lt.mp ceiling]
          · simp [floor, ceiling, long]

/-- An amount that is not a decimal with few enough places is complained about. -/
theorem toUnits_complains {found : Option Payload} {decimals : Nat}
    (other : ¬ ∃ (text : String) (n : Decimal), found = some (.str text) ∧
      n.text = strip text.toList ∧ n.frac.length ≤ decimals) :
    ∃ e, toUnits (found.getD .null) decimals = .error (.amount e) := by
  rcases found with _ | amount
  · exact ⟨_, rfl⟩
  · cases amount with
    | str text =>
        apply toUnits_other
        rintro ⟨n, spelt, short⟩
        exact other ⟨text, n, rfl, spelt, short⟩
    | null => exact ⟨_, rfl⟩
    | bool b => exact ⟨_, rfl⟩
    | int i => exact ⟨_, rfl⟩
    | float text => exact ⟨_, rfl⟩
    | list items => exact ⟨_, rfl⟩
    | dict fields => exact ⟨_, rfl⟩

theorem convertible_iff (own : foreignAsset cfg.asset (fields.lookup "asset") = none)
    {text : String} {n : Decimal} (found : fields.lookup "amount" = some (.str text))
    (spelt : n.text = strip text.toList) (short : n.frac.length ≤ cfg.tokenDecimals) :
    Convertible cfg fields ↔
      n.whole.length ≤ maxStrDigits ∧ cfg.tokenDecimals ≤ maxStrDigits ∧
      (cfg.minAmountUnits ≤ n.units cfg.tokenDecimals →
        n.units cfg.tokenDecimals ≤ cfg.maxAmountUnits →
        n.units cfg.tokenDecimals < 10 ^ maxStrDigits) := by
  constructor
  · intro convertible
    exact convertible.amount text n own found spelt short
  · intro limits
    refine ⟨fun asset foreign => ?_, fun text' n' _ found' spelt' _ => ?_⟩
    · rw [own] at foreign
      cases foreign
    · rw [found, Option.some.injEq, Payload.str.injEq] at found'
      obtain rfl := found'
      obtain rfl : n' = n := Decimal.text_injective (spelt'.trans spelt.symm)
      exact limits

/-- **What escapes.**  Past the first two checks validation raises a plain `ValueError` exactly
if some conversion is above the limit. -/
theorem validated_escapes_iff (request : Addressed sha256 payload fields) :
    validated sha256 cfg payload = .error .valueError ↔ ¬ Convertible cfg fields := by
  cases foreign : foreignAsset cfg.asset (fields.lookup "asset") with
  | some asset =>
      rw [validated_foreign request foreign]
      by_cases printable : asset.printable = true
      · have convertible : Convertible cfg fields := by
          refine ⟨fun asset' foreign' => ?_, fun text n own => ?_⟩
          · rw [foreign, Option.some.injEq] at foreign'
            exact foreign' ▸ printable
          · rw [foreign] at own
            cases own
        simp [printable, convertible]
      · have stuck : ¬ Convertible cfg fields := fun convertible =>
          printable (convertible.asset asset foreign)
        simp [printable, stuck]
  | none =>
      by_cases shape : ∃ (text : String) (n : Decimal), fields.lookup "amount" = some (.str text) ∧
          n.text = strip text.toList ∧ n.frac.length ≤ cfg.tokenDecimals
      · obtain ⟨text, n, found, spelt, short⟩ := shape
        have read := toUnits_decimal spelt short
        rw [convertible_iff foreign found spelt short]
        rcases validated_amount request foreign with
          ⟨e, complained, _⟩ | ⟨stuck, raised⟩ | ⟨units, parsed, escapes⟩
        · rw [found, Option.getD_some, read] at complained
          split at complained <;> cases complained
        · rw [found, Option.getD_some, read] at stuck
          split at stuck
          · cases stuck
          next limit => exact iff_of_true raised fun ok => limit ⟨ok.1, ok.2.1⟩
        · rw [found, Option.getD_some, read] at parsed
          split at parsed
          next limit =>
            cases parsed
            have digits : maxStrDigits < (Json.number (n.units cfg.tokenDecimals : Int)).length ↔
                ¬ n.units cfg.tokenDecimals < 10 ^ maxStrDigits := by
              rw [number_natCast, ← Nat.not_le,
                Nat.length_toDigits_le_iff (by decide) (by decide : 0 < maxStrDigits)]
            rw [escapes, digits]
            constructor
            · rintro ⟨floor, ceiling, long⟩ ok
              exact long (ok.2.2 floor ceiling)
            · intro stuck
              by_contra bounded
              refine stuck ⟨limit.1, limit.2, fun floor ceiling => ?_⟩
              by_contra long
              exact bounded ⟨floor, ceiling, long⟩
          · cases parsed
      · have convertible : Convertible cfg fields := by
          refine ⟨fun asset foreign' => ?_, fun text n _ found spelt short => ?_⟩
          · rw [foreign] at foreign'
            cases foreign'
          · exact absurd ⟨text, n, found, spelt, short⟩ shape
        obtain ⟨e, complained⟩ := toUnits_complains shape
        rcases validated_amount request foreign with
          ⟨_, _, raised⟩ | ⟨stuck, _⟩ | ⟨units, parsed, _⟩
        · simp [raised, convertible]
        · rw [complained] at stuck
          cases stuck
        · rw [complained] at parsed
          cases parsed

end Validated

/-- An answer of the intake, or an exception the HTTP layer maps to a status. -/
def Answered (outcome : Except IntakeError SubmitResult) : Prop :=
  (∃ result, outcome = .ok result) ∨
  (∃ field complaint, outcome = .error (.validation field complaint)) ∨
  ∃ id, outcome = .error (.payloadMismatch id)

theorem answered_iff (outcome : Except IntakeError SubmitResult) :
    Answered outcome ↔ outcome ≠ .error .valueError := by
  rcases outcome with (_ | _ | _) | _ <;> simp [Answered]

section Submission

variable (sha256 : Bytes → Bytes) (cfg : Config) (store : MemoryStore) (now : Int)
  (payload : Payload)

/-- A submission escapes exactly if its validation does. -/
theorem submitWithdrawal_escapes_iff :
    (submitWithdrawal sha256 cfg store now payload).1 = .error .valueError ↔
      validated sha256 cfg payload = .error .valueError := by
  rcases submitWithdrawal_cases sha256 cfg store now payload with
    ⟨e, invalid, done⟩ | ⟨op, existing, valid, _, done⟩ | ⟨op, valid, _, done⟩
  · rw [done, invalid]
    simp
  · rw [done, valid]
    by_cases same : existing.requestHash = op.requestHash <;> simp [same]
  · rw [done, valid]
    simp

theorem submitWithdrawal_raises {e : IntakeError}
    (raised : (submitWithdrawal sha256 cfg store now payload).1 = .error e) :
    (submitWithdrawal sha256 cfg store now payload).2 = store := by
  rcases submitWithdrawal_cases sha256 cfg store now payload with
    ⟨_, _, done⟩ | ⟨_, _, _, _, done⟩ | ⟨_, _, _, done⟩
  · rw [done]
  · rw [done]
  · rw [done] at raised
    cases raised

end Submission

/-- **The intake answers, or says why not**, exactly if a request that passes the checks of id
and address leads to no conversion above the digit limit; and whatever it raises, rows and events
are as before. -/
theorem intake_answers_iff (sha256 : Bytes → Bytes) (cfg : Config) (store : MemoryStore)
    (now : Int) (payload : Payload) :
    (Answered (submitWithdrawal sha256 cfg store now payload).1 ↔
      ∀ fields, Addressed sha256 payload fields → Convertible cfg fields) ∧
    ∀ e, (submitWithdrawal sha256 cfg store now payload).1 = .error e →
      (submitWithdrawal sha256 cfg store now payload).2 = store := by
  refine ⟨?_, fun e => submitWithdrawal_raises sha256 cfg store now payload⟩
  rw [answered_iff, Ne, submitWithdrawal_escapes_iff]
  by_cases addressed : ∃ fields, Addressed sha256 payload fields
  · obtain ⟨fields, request⟩ := addressed
    rw [validated_escapes_iff request, not_not]
    constructor
    · intro convertible fields' request'
      obtain rfl : fields = fields' := Payload.dict.inj (request.object.symm.trans request'.object)
      exact convertible
    · intro always
      exact always fields request
  · push Not at addressed
    obtain ⟨field, complaint, raised⟩ :
        ∃ field complaint, validated sha256 cfg payload = .error (.validation field complaint) :=
      validated_unaddressed addressed
    rw [raised]
    exact iff_of_true (by simp) fun fields request => absurd request (addressed fields)

/-! A request as clients send it, to an address that is valid under the identity digest. -/

def transfer (amount : String) : List (String × Payload) :=
  [("operation_id", .str "11111111-1111-4111-8111-111111111111"),
    ("to_address", .str "TA4Wt1DUCqz6YegbnsmqsWC5uUfbbwrfyr"), ("amount", .str amount)]

theorem transfer_addressed (amount : String) :
    Addressed id (.dict (transfer amount)) (transfer amount) := by
  have read : uuidOfText "11111111-1111-4111-8111-111111111111".toList =
      some 0x11111111111141118111111111111111#128 := by decide +kernel
  exact ⟨rfl, ⟨_, read⟩, _, rfl, by decide +kernel⟩

/-- The number written with `k + 1` ones. -/
def ones (k : Nat) : Decimal where
  whole := List.replicate (k + 1) '1'
  frac := []
  whole_digits := fun c member => by
    rw [List.eq_of_mem_replicate member]
    rfl
  frac_digits := List.forall_mem_nil _
  whole_some := List.cons_ne_nil _ _

theorem ones_spelt (k : Nat) :
    (ones k).text = strip (String.ofList (List.replicate (k + 1) '1')).toList := by
  rw [String.toList_ofList]
  exact (strip_text (ones k)).symm

/-- 4301 digits in the amount, and the conversion raises past the `except` clause. -/
theorem long_amount_escapes :
    ¬ Answered (submitWithdrawal id {} .empty 0
      (.dict (transfer (String.ofList (List.replicate 4301 '1'))))).1 := by
  rw [answered_iff, not_not, submitWithdrawal_escapes_iff,
    validated_escapes_iff (transfer_addressed _)]
  intro convertible
  have limit := (convertible.amount _ (ones 4300) rfl rfl (ones_spelt _) (Nat.zero_le _)).1
  have long : (ones 4300).whole.length = 4301 := List.length_replicate
  rw [long] at limit
  exact absurd limit (by decide)

/-- A single digit is converted and answered. -/
theorem intake_answers_one :
    let payload := .dict (transfer (String.ofList (List.replicate 1 '1')))
    (∀ fields, Addressed id payload fields → Convertible {} fields) ∧
      Answered (submitWithdrawal id {} .empty 0 payload).1 := by
  intro payload
  have units : (ones 0).units 6 = 1000000 := rfl
  have convertible : ∀ fields, Addressed id payload fields → Convertible {} fields := by
    intro fields request
    obtain rfl := Payload.dict.inj request.object
    rw [convertible_iff rfl rfl (ones_spelt 0) (Nat.zero_le _)]
    refine ⟨by decide, by decide, fun _ _ => ?_⟩
    calc (ones 0).units 6 < 10 ^ 7 := by rw [units]; decide
      _ ≤ 10 ^ maxStrDigits := Nat.pow_le_pow_right (by decide) (by decide)
  exact ⟨convertible, (intake_answers_iff id {} .empty 0 payload).1.mpr convertible⟩

end Sluice.Kernel
