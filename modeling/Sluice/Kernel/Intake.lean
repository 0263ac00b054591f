/-
# Kernel.Intake -- amounts, request hash, and the submission of a withdrawal

`money.py`, `canonical.py` and `service.py`.  A payload is a decoded JSON value; the
amount must be a decimal string and is turned into integer units by string
arithmetic alone.  `validated` is everything `submit_withdrawal` does before it
touches the store: it reads only the payload and the configuration, and then a single
`insertNew` decides the race.

Exceptions are kept apart as the callers see them: a `ValidationError` with its field,
a `PayloadMismatch`, and the `ValueError` that escapes when `int` or `str` meets more
digits than the interpreter converts.
-/
import Sluice.Kernel.Address
import Sluice.Kernel.MemoryStore
import Sluice.Kernel.Text

namespace Sluice.Kernel

open Sluice.Theory

set_option autoImplicit false

/-- A decoded JSON value.  A float is kept as the text Python prints for it. -/
inductive Payload where
  | null
  | bool (b : Bool)
  | int (i : Int)
  | float (text : String)
  | str (s : String)
  | list (items : List Payload)
  | dict (fields : List (String × Payload))

mutual

/-- Whether `repr` gets through the value: it raises at an integer above the digit limit,
however deep inside. -/
def Payload.printable : Payload → Bool
  | .int i => (strOfNat i.natAbs).isSome
  | .list items => printableItems items
  | .dict fields => printableFields fields
  | .null | .bool _ | .float _ | .str _ => true

def printableItems : List Payload → Bool
  | [] => true
  | item :: items => item.printable && printableItems items

def printableFields : List (String × Payload) → Bool
  | [] => true
  | (_, value) :: fields => value.printable && printableFields fields

end

/-- `type(value).__name__`. -/
def Payload.typeName : Payload → String
  | .null => "NoneType"
  | .bool _ => "bool"
  | .int _ => "int"
  | .float _ => "float"
  | .str _ => "str"
  | .list _ => "list"
  | .dict _ => "dict"

/-! ## Amounts -/

inductive AmountError where
  | notString (typeName : String)
  | malformed (amount : String)
  | tooPrecise (amount : String) (digits decimals : Nat)
  | negativeUnits
  deriving DecidableEq, Repr

/-- Why an amount did not become units. -/
inductive AmountFailure where
  | amount (error : AmountError)
  /-- `int` above its digit limit: a plain `ValueError`. -/
  | value
  deriving DecidableEq, Repr

/-- `^[0-9]+(\.[0-9]+)?$`: whole part and fraction, the fraction empty when absent. -/
def matchAmount (text : List Char) : Option (List Char × List Char) :=
  let whole := text.takeWhile isAsciiDigit
  if whole = [] then none
  else match text.dropWhile isAsciiDigit with
    | [] => some (whole, [])
    | '.' :: frac => if frac ≠ [] ∧ frac.all isAsciiDigit then some (whole, frac) else none
    | _ => none

/-- `str.ljust(width, "0")`. -/
def padRight (width : Nat) (digits : List Char) : List Char :=
  digits ++ List.replicate (width - digits.length) '0'

def toUnits (amount : Payload) (decimals : Nat) : Except AmountFailure Int :=
  match amount with
  | .str text =>
      match matchAmount (strip text.toList) with
      | none => .error (.amount (.malformed text))
      | some (whole, frac) =>
          if frac.length > decimals then .error (.amount (.tooPrecise text frac.length decimals))
          else
            let fracDigits := if padRight decimals frac = [] then ['0'] else padRight decimals frac
            match intOfDigits whole, intOfDigits fracDigits with
            | some w, some f => .ok (w * 10 ^ decimals + f : Nat)
            | _, _ => .error .value
  | other => .error (.amount (.notString other.typeName))

/-- `str.rjust(width, "0")`. -/
def padLeft (width : Nat) (digits : List Char) : List Char :=
  List.replicate (width - digits.length) '0' ++ digits

/-- `str.rstrip("0")`. -/
def stripZeros (digits : List Char) : List Char := (digits.reverse.dropWhile (· = '0')).reverse

def toHuman (units : Int) (decimals : Nat) : Except AmountFailure String :=
  if units < 0 then .error (.amount .negativeUnits)
  else
    let whole := units.toNat / 10 ^ decimals
    let frac := units.toNat % 10 ^ decimals
    if frac = 0 then
      match strOfNat whole with
      | some w => .ok (String.ofList w)
      | none => .error .value
    else
      match strOfNat whole, strOfNat frac with
      | some w, some f => .ok (String.ofList (w ++ '.' :: stripZeros (padLeft decimals f)))
      | _, _ => .error .value

/-! ## Request hash -/

/-- The object whose canonical text is hashed, keys sorted. -/
def canonicalRequest (toAddress : String) (amountUnits : Int) (asset : String) : Json.Value :=
  .obj (.cons "amount_units" (.num amountUnits)
    (.cons "asset" (.str asset) (.cons "to_address" (.str toAddress) .nil)))

def requestHash (sha256 : Bytes → Bytes) (toAddress : String) (amountUnits : Int) (asset : String) :
    Bytes :=
  sha256 (encodeAscii (canonicalRequest toAddress amountUnits asset).text)

section Preimage

variable {toAddress toAddress' asset asset' : String} {units units' : Int}

/-- The canonical text can be read back: its fields are delimited whatever they contain. -/
theorem canonicalRequest_inj
    (same : (canonicalRequest toAddress units asset).text =
      (canonicalRequest toAddress' units' asset').text) :
    toAddress = toAddress' ∧ units = units' ∧ asset = asset' := by
  have values := Json.text_injective same
  simp only [canonicalRequest, Json.Value.obj.injEq, Json.Fields.cons.injEq, Json.Value.num.injEq,
    Json.Value.str.injEq, true_and, and_true] at values
  exact ⟨values.2.2, values.1, values.2.1⟩

theorem encodedRequest_inj
    (same : encodeAscii (canonicalRequest toAddress units asset).text =
      encodeAscii (canonicalRequest toAddress' units' asset').text) :
    toAddress = toAddress' ∧ units = units' ∧ asset = asset' :=
  canonicalRequest_inj (encodeAscii_injective (Json.text_ascii _) (Json.text_ascii _) same)

/-- Without collisions the hash names the meaning of the request. -/
theorem requestHash_injective {sha256 : Bytes → Bytes} (separates : Function.Injective sha256)
    (same : requestHash sha256 toAddress units asset =
      requestHash sha256 toAddress' units' asset') :
    toAddress = toAddress' ∧ units = units' ∧ asset = asset' :=
  encodedRequest_inj (separates same)

end Preimage

/-- **The pre-image names the request.**  Text and bytes fed to the digest are those of one
address, amount and asset only. -/
theorem preimage_injective :
    Function.Injective (fun request : String × Int × String =>
      (canonicalRequest request.1 request.2.1 request.2.2).text) ∧
    Function.Injective (fun request : String × Int × String =>
      encodeAscii (canonicalRequest request.1 request.2.1 request.2.2).text) := by
  constructor
  · rintro ⟨toAddress, units, asset⟩ ⟨toAddress', units', asset'⟩ same
    obtain ⟨rfl, rfl, rfl⟩ := canonicalRequest_inj same
    rfl
  · rintro ⟨toAddress, units, asset⟩ ⟨toAddress', units', asset'⟩ same
    obtain ⟨rfl, rfl, rfl⟩ := encodedRequest_inj same
    rfl

/-! ## Submission -/

inductive Complaint where
  | text (message : String)
  | unsupportedAsset (asset : Payload)
  | amount (error : AmountError)

inductive IntakeError where
  | validation (field : String) (complaint : Complaint)
  | payloadMismatch (operationId : UUID)
  /-- An exception no caller expects. -/
  | valueError

structure SubmitResult where
  operation : Operation
  created : Bool

/-- `uuid.UUID(str(raw_id))`.  The text of a list, of an object or of a float is never
a UUID. -/
def uuidOfPayload : Option Payload → Option UUID
  | some (.str s) => uuidOfText s.toList
  | some (.int i) =>
      if (Json.number i).length > maxStrDigits then none else uuidOfText (Json.number i)
  | _ => none

/-- `payload.get("asset", cfg.asset) != cfg.asset`, with the offending value. -/
def foreignAsset (asset : String) : Option Payload → Option Payload
  | none => none
  | some (.str s) => if s = asset then none else some (.str s)
  | some other => some other

/-- The checks of `submit_withdrawal` and the row it would insert. -/
def validated (sha256 : Bytes → Bytes) (cfg : Config) (payload : Payload) :
    Except IntakeError Operation :=
  match payload with
  | .dict fields =>
      match uuidOfPayload (fields.lookup "operation_id") with
      | none =>
          .error (.validation "operation_id" (.text "must be a UUID (client-generated)"))
      | some operationId =>
          match fields.lookup "to_address" with
          | some (.str toAddress) =>
              if !Address.isValid sha256 toAddress then
                .error (.validation "to_address" (.text "not a valid TRON base58check address"))
              else match foreignAsset cfg.asset (fields.lookup "asset") with
                | some asset =>
                    -- the message holds the asset as text
                    if asset.printable then
                      .error (.validation "asset" (.unsupportedAsset asset))
                    else .error .valueError
                | none =>
                    match toUnits ((fields.lookup "amount").getD .null) cfg.tokenDecimals with
                    | .error (.amount e) => .error (.validation "amount" (.amount e))
                    | .error .value => .error .valueError
                    | .ok amountUnits =>
                        if amountUnits < cfg.minAmountUnits then
                          .error (.validation "amount" (.text "below minimum"))
                        else if amountUnits > cfg.maxAmountUnits then
                          .error (.validation "amount" (.text "above per-operation maximum"))
                        else if (Json.number amountUnits).length > maxStrDigits then
                          -- the hash needs the amount as text
                          .error .valueError
                        else .ok {
                          operationId := operationId
                          requestHash := requestHash sha256 toAddress amountUnits cfg.asset
                          state := .requested
                          toAddress := toAddress
                          asset := cfg.asset
                          amountUnits := amountUnits }
          | _ => .error (.validation "to_address" (.text "not a valid TRON base58check address"))
  | _ => .error (.validation "body" (.text "expected a JSON object"))

def submitWithdrawal (sha256 : Bytes → Bytes) (cfg : Config) (store : MemoryStore) (now : Int)
    (payload : Payload) : Except IntakeError SubmitResult × MemoryStore :=
  match validated sha256 cfg payload with
  | .error e => (.error e, store)
  | .ok op =>
      match store.insertNew now op with
      | ((row, created), store) =>
          if !created ∧ row.requestHash ≠ op.requestHash then
            (.error (.payloadMismatch op.operationId), store)
          else (.ok ⟨row, created⟩, store)

theorem toUnits_nonneg {amount : Payload} {decimals : Nat} {units : Int}
    (parsed : toUnits amount decimals = .ok units) : 0 ≤ units := by
  unfold toUnits at parsed
  split at parsed
  · split at parsed
    · cases parsed
    · split at parsed
      · cases parsed
      · simp only at parsed
        split at parsed
        · cases parsed
          exact Int.natCast_nonneg _
        · cases parsed
  · cases parsed

/-- What a payload that passes validation says, and the row it asks for. -/
structure Validated (sha256 : Bytes → Bytes) (cfg : Config) (payload : Payload) (op : Operation) :
    Prop where
  request : ∃ fields, payload = .dict fields ∧
    uuidOfPayload (fields.lookup "operation_id") = some op.operationId ∧
    fields.lookup "to_address" = some (.str op.toAddress) ∧
    toUnits ((fields.lookup "amount").getD .null) cfg.tokenDecimals = .ok op.amountUnits
  address : Address.isValid sha256 op.toAddress = true
  floor : cfg.minAmountUnits ≤ op.amountUnits
  ceiling : op.amountUnits ≤ cfg.maxAmountUnits
  short : (Json.number op.amountUnits).length ≤ maxStrDigits
  row : op = {
    operationId := op.operationId
    requestHash := requestHash sha256 op.toAddress op.amountUnits cfg.asset
    state := .requested
    toAddress := op.toAddress
    asset := cfg.asset
    amountUnits := op.amountUnits }

theorem validated_row {sha256 : Bytes → Bytes} {cfg : Config} {payload : Payload} {op : Operation}
    (valid : validated sha256 cfg payload = .ok op) : Validated sha256 cfg payload op := by
  unfold validated at valid
  split at valid
  · rename_i fields
    split at valid
    · cases valid
    · rename_i id named
      split at valid
      · rename_i address addressed
        split at valid
        · cases valid
        · rename_i good
          split at valid
          · split at valid <;> cases valid
          · split at valid
            · cases valid
            · cases valid
            · rename_i units parsed
              split at valid
              · cases valid
              · rename_i floor
                split at valid
                · cases valid
                · rename_i ceiling
                  split at valid
                  · cases valid
                  · rename_i short
                    cases valid
                    exact ⟨⟨fields, rfl, named, addressed, parsed⟩, by simpa using good,
                      not_lt.mp floor, not_lt.mp ceiling, not_lt.mp short, rfl⟩
      · cases valid
  · cases valid

theorem Validated.natural {sha256 : Bytes → Bytes} {cfg : Config} {payload : Payload}
    {op : Operation} (valid : Validated sha256 cfg payload op) : 0 ≤ op.amountUnits := by
  obtain ⟨_, _, _, _, parsed⟩ := valid.request
  exact toUnits_nonneg parsed

/-- Everything a submission can do to the store. -/
theorem submitWithdrawal_cases (sha256 : Bytes → Bytes) (cfg : Config) (store : MemoryStore)
    (now : Int) (payload : Payload) :
    (∃ e, validated sha256 cfg payload = .error e ∧
      submitWithdrawal sha256 cfg store now payload = (.error e, store)) ∨
    (∃ op existing, validated sha256 cfg payload = .ok op ∧
      store.ops.get? op.operationId = some existing ∧
      submitWithdrawal sha256 cfg store now payload =
        (if existing.requestHash = op.requestHash then .ok ⟨existing, false⟩
          else .error (.payloadMismatch op.operationId), store)) ∨
    (∃ op, validated sha256 cfg payload = .ok op ∧ store.ops.get? op.operationId = none ∧
      submitWithdrawal sha256 cfg store now payload =
        (.ok ⟨{ op with createdAt := some now, updatedAt := some now }, true⟩,
          store.insertRow now op)) := by
  unfold submitWithdrawal
  split
  · rename_i e invalid
    exact .inl ⟨e, invalid, rfl⟩
  · rename_i op valid
    right
    rcases store.insertNew_cases now op with ⟨existing, found, inserted⟩ | ⟨absent, inserted⟩
    · refine .inl ⟨op, existing, valid, found, ?_⟩
      rw [inserted]
      by_cases same : existing.requestHash = op.requestHash <;> simp [same]
    · refine .inr ⟨op, valid, absent, ?_⟩
      rw [inserted]
      simp

end Sluice.Kernel
