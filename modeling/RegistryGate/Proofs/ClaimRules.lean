import Mathlib.Data.Rat.Floor
import RegistryGate.Proofs.Decision

/-!
# The rules of claims, and time

The claims of a token meet with exactly one verdict: the first rule that they break, or acceptance. The
clock is cut off toward zero before it is compared (`wholeSeconds_eq`), so that an expiry is never missed,
and what has expired stays so (`check_over_time`).
-/

namespace RegistryGate.Claims

/-! ## Whole seconds -/

theorem wholeSeconds_of_nonneg {reading : Rat} (nonneg : 0 ≤ reading) :
    wholeSeconds reading = ⌊reading⌋ := by
  have numerator : 0 ≤ reading.num := Rat.num_nonneg.mpr nonneg
  rw [wholeSeconds, Rat.floor_def', Int.tdiv_eq_ediv_of_nonneg numerator]

theorem wholeSeconds_of_nonpos {reading : Rat} (nonpos : reading ≤ 0) :
    wholeSeconds reading = ⌈reading⌉ := by
  have numerator : 0 ≤ -reading.num := by
    have := Rat.num_nonpos.mpr nonpos
    omega
  rw [wholeSeconds, Rat.ceil_def', ← Int.tdiv_eq_ediv_of_nonneg numerator, Int.neg_tdiv, neg_neg]

/-- A clock reading is cut off toward zero: down after the start of the epoch and up before it. -/
theorem wholeSeconds_eq (reading : Rat) :
    wholeSeconds reading = if 0 ≤ reading then ⌊reading⌋ else ⌈reading⌉ := by
  by_cases nonneg : 0 ≤ reading
  · rw [if_pos nonneg, wholeSeconds_of_nonneg nonneg]
  · rw [if_neg nonneg, wholeSeconds_of_nonpos (by linarith)]

theorem le_wholeSeconds {second : Int} {reading : Rat} (reached : (second : Rat) ≤ reading) :
    second ≤ wholeSeconds reading := by
  by_cases nonneg : 0 ≤ reading
  · rw [wholeSeconds_of_nonneg nonneg]
    exact Int.le_floor.mpr reached
  · rw [wholeSeconds_of_nonpos (by linarith)]
    have below := reached.trans (Int.le_ceil reading)
    exact_mod_cast below

theorem le_wholeSeconds_iff {second : Int} {reading : Rat} (nonneg : 0 ≤ reading) :
    second ≤ wholeSeconds reading ↔ (second : Rat) ≤ reading := by
  rw [wholeSeconds_of_nonneg nonneg]
  exact Int.le_floor

theorem wholeSeconds_mono {reading later : Rat} (onward : reading ≤ later) :
    wholeSeconds reading ≤ wholeSeconds later := by
  by_cases nonneg : 0 ≤ reading
  · -- Both readings are cut off downward.
    rw [wholeSeconds_of_nonneg nonneg, wholeSeconds_of_nonneg (nonneg.trans onward)]
    exact Int.floor_le_floor onward
  · rw [wholeSeconds_of_nonpos (by linarith)]
    by_cases after : 0 ≤ later
    · -- The first is at most zero and the second at least.
      have before : ⌈reading⌉ ≤ 0 := Int.ceil_le.mpr (by push_cast; linarith)
      rw [wholeSeconds_of_nonneg after]
      exact before.trans (Int.floor_nonneg.mpr after)
    · rw [wholeSeconds_of_nonpos (by linarith)]
      exact Int.ceil_le_ceil onward

/-! ## Rules -/

/-- The policy asks for an audience, and the claims are for another one. -/
def WrongAudience (policy : AccessPolicy) (payload : Payload) : Prop :=
  policy.expectedAudience ≠ "" ∧ policy.expectedAudience ≠ payload.audience

/-- The policy names repositories, and that of the claims is none of them. -/
def Unlisted (policy : AccessPolicy) (payload : Payload) : Prop :=
  policy.repositories.isEmpty = false ∧ payload.repository ∉ policy.repositories

/-- The verdicts on claims at a clock reading, in order of priority. -/
structure Judged (policy : AccessPolicy) (payload : Payload) (reading : Rat) : Prop where
  audience : ∀ audience expected,
    check policy reading payload = .error (.audienceMismatch audience expected) ↔
      WrongAudience policy payload ∧ audience = payload.audience ∧ expected = policy.expectedAudience
  expired : ∀ expiresAt now,
    check policy reading payload = .error (.tokenExpired expiresAt now) ↔
      ¬ WrongAudience policy payload ∧ payload.expiresAt ≤ wholeSeconds reading ∧
        expiresAt = payload.expiresAt ∧ now = wholeSeconds reading
  repository : ∀ repository,
    check policy reading payload = .error (.repositoryNotAllowed repository) ↔
      ¬ WrongAudience policy payload ∧ wholeSeconds reading < payload.expiresAt ∧
        Unlisted policy payload ∧ repository = payload.repository
  accepted : check policy reading payload = .ok () ↔
    ¬ WrongAudience policy payload ∧ wholeSeconds reading < payload.expiresAt ∧
      ¬ Unlisted policy payload

variable {policy : AccessPolicy} {payload : Payload} {reading : Rat}

theorem check_of_wrongAudience (wrong : WrongAudience policy payload) (reading : Rat) :
    check policy reading payload =
      .error (.audienceMismatch payload.audience policy.expectedAudience) := by
  rw [check]
  simp only [ne_eq]
  rw [if_pos ⟨wrong.1, Ne.symm wrong.2⟩]

theorem not_mismatch (right : ¬ WrongAudience policy payload) :
    ¬ (policy.expectedAudience ≠ "" ∧ payload.audience ≠ policy.expectedAudience) :=
  fun mismatch => right ⟨mismatch.1, Ne.symm mismatch.2⟩

theorem check_of_expired (right : ¬ WrongAudience policy payload)
    (past : payload.expiresAt ≤ wholeSeconds reading) :
    check policy reading payload =
      .error (.tokenExpired payload.expiresAt (wholeSeconds reading)) := by
  rw [check]
  simp only [if_neg (not_mismatch right), if_pos past]

theorem check_of_unlisted (right : ¬ WrongAudience policy payload)
    (valid : wholeSeconds reading < payload.expiresAt) (unlisted : Unlisted policy payload) :
    check policy reading payload = .error (.repositoryNotAllowed payload.repository) := by
  rw [check]
  simp only [if_neg (not_mismatch right), if_neg (not_le.mpr valid)]
  exact if_pos unlisted

theorem check_of_allowed (right : ¬ WrongAudience policy payload)
    (valid : wholeSeconds reading < payload.expiresAt) (allowed : ¬ Unlisted policy payload) :
    check policy reading payload = .ok () := by
  rw [check]
  simp only [if_neg (not_mismatch right), if_neg (not_le.mpr valid)]
  exact if_neg allowed

/-- Claims meet with one of the four verdicts. -/
theorem judged (policy : AccessPolicy) (payload : Payload) (reading : Rat) :
    Judged policy payload reading := by
  by_cases wrong : WrongAudience policy payload
  · have verdict := check_of_wrongAudience wrong reading
    constructor <;> simp [verdict, wrong, eq_comm]
  by_cases past : payload.expiresAt ≤ wholeSeconds reading
  · have verdict := check_of_expired wrong past
    constructor <;> simp [verdict, wrong, past, not_lt.mpr past, eq_comm]
  have valid := not_le.mp past
  by_cases unlisted : Unlisted policy payload
  · have verdict := check_of_unlisted wrong valid unlisted
    constructor <;> simp [verdict, wrong, past, valid, unlisted, eq_comm]
  · have verdict := check_of_allowed wrong valid unlisted
    constructor <;> simp [verdict, wrong, past, valid, unlisted]

/-! ## Time -/

/-- What becomes of claims from a clock reading to a later one. -/
structure Timed (policy : AccessPolicy) (payload : Payload) (reading later : Rat) : Prop where
  /-- Claims whose expiry has come are not accepted. -/
  refused : (payload.expiresAt : Rat) ≤ reading → check policy reading payload ≠ .ok ()
  /-- After the start of the epoch cutting off makes no difference to the expiry. -/
  exact : 0 ≤ reading →
    (payload.expiresAt ≤ wholeSeconds reading ↔ (payload.expiresAt : Rat) ≤ reading)
  lasting : ∀ expiresAt now,
    check policy reading payload = .error (.tokenExpired expiresAt now) →
      check policy later payload = .error (.tokenExpired expiresAt (wholeSeconds later))

theorem reading_lt_of_ok (accepted : check policy reading payload = .ok ()) :
    reading < payload.expiresAt := by
  obtain ⟨-, valid, -⟩ := (judged policy payload reading).accepted.mp accepted
  by_contra past
  have reached := le_wholeSeconds (not_lt.mp past)
  omega

theorem timed (policy : AccessPolicy) (payload : Payload) {reading later : Rat}
    (onward : reading ≤ later) : Timed policy payload reading later where
  refused := by
    intro past accepted
    have valid := reading_lt_of_ok accepted
    linarith
  exact := le_wholeSeconds_iff
  lasting := by
    intro expiresAt now refused
    obtain ⟨right, past, rfl, rfl⟩ := ((judged policy payload reading).expired _ _).mp refused
    exact check_of_expired right (past.trans (wholeSeconds_mono onward))

/-! ## More repositories -/

/-- The policy with one more repository on its list. -/
def withRepository (policy : AccessPolicy) (name : String) : AccessPolicy :=
  { policy with repositories := policy.repositories.insert name }

theorem check_withRepository (listing : policy.repositories.isEmpty = false) (name : String)
    (accepted : check policy reading payload = .ok ()) :
    check (withRepository policy name) reading payload = .ok () := by
  obtain ⟨right, valid, allowed⟩ := (judged policy payload reading).accepted.mp accepted
  have alsoRight : ¬ WrongAudience (withRepository policy name) payload := right
  apply check_of_allowed alsoRight valid
  intro unlisted
  apply allowed
  refine ⟨listing, ?_⟩
  intro listed
  exact unlisted.2 (NameSet.mem_insert.mpr (.inr listed))

/-- Claims are judged by the audience, the expiry and the repository, in that order. The clock is cut off
toward zero and never too late, so that whoever was let in had time left; what has expired stays so; and
a longer list of repositories refuses nobody that a shorter one let in. -/
theorem check_over_time (policy : AccessPolicy) (payload : Payload) {reading later : Rat}
    (onward : reading ≤ later) :
    Judged policy payload reading ∧
      (wholeSeconds reading = if 0 ≤ reading then ⌊reading⌋ else ⌈reading⌉) ∧
      Timed policy payload reading later ∧
      (policy.repositories.isEmpty = false → ∀ name, check policy reading payload = .ok () →
        check (withRepository policy name) reading payload = .ok ()) ∧
      ∀ context credential api now slot grant,
        (((Verifier.claims policy reading).verify context credential).run api none now slot).value =
          some (.ok grant) →
        ∃ claims, decode credential.value = .ok claims ∧ reading < claims.expiresAt := by
  refine ⟨judged policy payload reading, wholeSeconds_eq reading, timed policy payload onward, ?_, ?_⟩
  · intro listing name accepted
    exact check_withRepository listing name accepted
  · intro context credential api now slot grant granted
    obtain ⟨-, -, -, grants⟩ :=
      Engine.verify_claims policy reading context credential api now slot
    obtain ⟨claims, decoded, accepted, -⟩ := (grants grant).mp granted
    exact ⟨claims, decoded, reading_lt_of_ok accepted⟩

/-- The claims of a build of one repository, with an expiry at the start of the epoch. -/
def epochClaims : Payload := ⟨"repo:o/r", "registry", "o/r", "octocat", "", "", 0, -60⟩

def buildPolicy : AccessPolicy :=
  { AccessPolicy.ofRealm "builds" (by decide) with
    claimsEnabled := true
    expectedAudience := "registry"
    repositories := .ofList ["o/r", "o/s"] }

/-- Half a second before the start of the epoch counts as its start, and what expired then is expired
afterwards. -/
theorem epochClaims_expired :
    (-1 / 2 : Rat) ≤ 5 / 2 ∧
      check buildPolicy (-1 / 2) epochClaims = .error (.tokenExpired 0 0) ∧
      check buildPolicy (5 / 2) epochClaims = .error (.tokenExpired 0 (wholeSeconds (5 / 2))) := by
  have onward : (-1 / 2 : Rat) ≤ 5 / 2 := by norm_num
  have expired : check buildPolicy (-1 / 2) epochClaims = .error (.tokenExpired 0 0) := by
    decide +kernel
  obtain ⟨-, -, timed, -, -⟩ := check_over_time buildPolicy epochClaims onward
  exact ⟨onward, expired, timed.lasting 0 0 expired⟩

end RegistryGate.Claims
