import Mathlib.Logic.Basic

/-!
# Status — error categories and failing statuses

A `Result<T>` of the modelled program is an `Except Status T`, and an operation that returns a bare
`Status` is an `Except Status Unit`: the successful status carries no data of its own.
-/

namespace AscCpp
namespace Core

inductive ErrorCode where
  | ok
  | invalidArgument
  | shape
  | index
  | overflow
  | invalidState
  | allocation
  | memoryAccess
  | memoryTransfer
  | unsupported
  | unavailable
  | provider
  | numerical
  | configuration
  | io
  | endOfFile
  | encoding
  | version
  | internal
  deriving DecidableEq, Repr

def errorCodeName : ErrorCode → String
  | .ok => "ok"
  | .invalidArgument => "invalid-argument"
  | .shape => "shape"
  | .index => "index"
  | .overflow => "overflow"
  | .invalidState => "invalid-state"
  | .allocation => "allocation"
  | .memoryAccess => "memory-access"
  | .memoryTransfer => "memory-transfer"
  | .unsupported => "unsupported"
  | .unavailable => "unavailable"
  | .provider => "provider"
  | .numerical => "numerical"
  | .configuration => "configuration"
  | .io => "io"
  | .endOfFile => "end-of-file"
  | .encoding => "encoding"
  | .version => "version"
  | .internal => "internal"

structure Status where
  code : ErrorCode
  message : String := ""
  provider : String := ""
  nativeCode : Int := 0
  deriving DecidableEq, Repr

namespace Status

/-- The rendering that nested diagnostics embed. -/
def toString (status : Status) : String :=
  if status.code = .ok then
    "ok"
  else
    let origin :=
      if status.provider ≠ "" then
        " [" ++ status.provider ++
          (if status.nativeCode ≠ 0 then ":" ++ status.nativeCode.repr else "") ++ "]"
      else if status.nativeCode ≠ 0 then
        " [native:" ++ status.nativeCode.repr ++ "]"
      else
        ""
    errorCodeName status.code ++ origin ++
      (if status.message ≠ "" then ": " ++ status.message else "")

end Status

/-- `Result<T>`: one value or one failing status. -/
abbrev Result (α : Type) := Except Status α

/-! ## Early returns -/

/-- `if (condition) return failure;`. -/
def failIf (condition : Prop) [Decidable condition] (failure : Status) : Result Unit :=
  if condition then .error failure else .ok ()

namespace Result

variable {α β : Type}

@[simp] theorem failIf_eq_ok_iff {condition : Prop} [Decidable condition] {failure : Status} :
    failIf condition failure = .ok () ↔ ¬ condition := by
  unfold failIf
  split <;> simp_all

/-- Past a check, the run goes on exactly when the check does not fire. -/
@[simp] theorem failIf_bind_eq_ok_iff {condition : Prop} [Decidable condition] {failure : Status}
    {next : Unit → Result β} {value : β} :
    (failIf condition failure >>= next) = .ok value ↔ ¬ condition ∧ next () = .ok value := by
  unfold failIf
  split <;> simp_all [bind, Except.bind]

theorem bind_eq_ok_iff {result : Result α} {next : α → Result β} {value : β} :
    (result >>= next) = .ok value ↔ ∃ inner, result = .ok inner ∧ next inner = .ok value := by
  cases result <;> simp [bind, Except.bind]

/-- A step without a value succeeds, and then the rest does. -/
theorem unit_bind_eq_ok_iff {result : Result Unit} {next : Unit → Result β} {value : β} :
    (result >>= next) = .ok value ↔ result = .ok () ∧ next () = .ok value := by
  rw [bind_eq_ok_iff]
  constructor
  · rintro ⟨⟨⟩, hresult, hnext⟩
    exact ⟨hresult, hnext⟩
  · rintro ⟨hresult, hnext⟩
    exact ⟨(), hresult, hnext⟩

theorem ok_bind (inner : α) (next : α → Result β) :
    ((.ok inner : Result α) >>= next) = next inner := rfl

theorem mapError_ok (value : α) (report : Status → Status) :
    ((.ok value : Result α).mapError report : Result α) = .ok value := rfl

theorem mapError_error (failure : Status) (report : Status → Status) :
    ((.error failure : Result α).mapError report : Result α) = .error (report failure) := rfl

/-- A step whose failure is reported under another status. -/
@[simp] theorem mapError_eq_ok_iff {result : Result α} {report : Status → Status} {value : α} :
    (result.mapError report : Result α) = .ok value ↔ result = .ok value := by
  cases result <;> simp [mapError_ok, mapError_error]

/-- A loop of checks succeeds when every one of its rounds does. -/
theorem forM_eq_ok_iff {items : List α} {body : α → Result Unit} :
    (forM items body : Result Unit) = .ok () ↔ ∀ item ∈ items, body item = .ok () := by
  induction items with
  | nil => simp [List.forM_nil, pure, Except.pure]
  | cons item items ih =>
    rw [List.forM_cons, unit_bind_eq_ok_iff, List.forall_mem_cons, ← ih]

/-- A loop depends on its rounds over its own items only. -/
theorem foldlM_congr {items : List α} {body body' : β → α → Result β}
    (h : ∀ item ∈ items, ∀ state, body state item = body' state item) (state : β) :
    items.foldlM body state = items.foldlM body' state := by
  induction items generalizing state with
  | nil => rfl
  | cons item items ih =>
    rw [List.forall_mem_cons] at h
    simp only [List.foldlM_cons, h.1]
    congr 1
    funext next
    exact ih h.2 next

/-! No failure of the run carries the code. -/

def Avoids (code : ErrorCode) (result : Result α) : Prop :=
  ∀ status, result = .error status → status.code ≠ code

theorem Avoids.ok (code : ErrorCode) (value : α) : Avoids code (.ok value : Result α) :=
  fun _ h => nomatch h

theorem Avoids.error {code : ErrorCode} {failure : Status} (h : failure.code ≠ code) :
    Avoids code (.error failure : Result α) := by
  intro status hfailure
  cases hfailure
  exact h

theorem Avoids.failIf {code : ErrorCode} {condition : Prop} [Decidable condition]
    {failure : Status} (h : failure.code ≠ code) : Avoids code (failIf condition failure) := by
  unfold Core.failIf
  split
  · exact .error h
  · exact .ok code ()

theorem Avoids.bind {code : ErrorCode} {result : Result α} {next : α → Result β}
    (hresult : Avoids code result) (hnext : ∀ inner, Avoids code (next inner)) :
    Avoids code (result >>= next) := by
  cases result with
  | error failure => exact .error (hresult failure rfl)
  | ok inner => exact hnext inner

/-- A run that fails with one code only, and does not succeed. -/
theorem exists_code_of_avoids {code : ErrorCode} {result : Result α}
    (h : ∀ other, other ≠ code → Avoids other result) (hfails : ∀ value, result ≠ .ok value) :
    ∃ status, result = .error status ∧ status.code = code := by
  cases result with
  | error status => exact ⟨status, rfl, by_contra fun hother => h status.code hother status rfl rfl⟩
  | ok value => exact absurd rfl (hfails value)

/-- A loop over concatenated lists is a loop in a loop. -/
theorem foldlM_flatMap {γ : Type} {items : List α} {inner : α → List γ} {body : β → γ → Result β}
    (state : β) :
    (items.flatMap inner).foldlM body state =
      items.foldlM (fun state item => (inner item).foldlM body state) state := by
  induction items generalizing state with
  | nil => rfl
  | cons item items ih =>
    rw [List.flatMap_cons, List.foldlM_append, List.foldlM_cons]
    congr 1
    funext next
    exact ih next

/-- A loop whose rounds all succeed is a fold. -/
theorem foldlM_ok {items : List α} (step : β → α → β) (state : β) :
    items.foldlM (fun state item => (.ok (step state item) : Result β)) state =
      .ok (items.foldl step state) := by
  induction items generalizing state with
  | nil => rfl
  | cons item items ih => exact ih (step state item)

end Result

end Core
end AscCpp
