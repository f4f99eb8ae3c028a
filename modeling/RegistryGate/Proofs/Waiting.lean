import RegistryGate.Proofs.Chain
import RegistryGate.Proofs.Timeline

/-!
# What requests wait for

A lookup waits for nothing but exchanges, each of them under the time limit of its policy, and sends
nothing if no time is left (`Procedure.Limited`, `Identity.verify_limited`). So neither the standard
engine nor a chain of verifiers with delays ever waits for an instant in the past
(`Engine.Made.onward`).
-/

namespace RegistryGate

namespace Seconds

/-- A time limit that leaves any time at all is ahead. -/
theorem toRat?_pos {seconds : Seconds} {limit : Rat} (left : seconds.isNonpositive = false)
    (exact : seconds.toRat? = some limit) : 0 < limit := by
  cases seconds with
  | whole value =>
    cases exact
    have positive : 0 < value := not_le.mp (of_decide_eq_false left)
    exact Rat.intCast_pos.mpr positive
  | real value =>
    cases value with
    | infinite negative => cases exact
    | nan => cases exact
    | finite negative mantissa exponent =>
      simp only [isNonpositive, Binary64.isNonpositive, Bool.or_eq_false_iff] at left
      obtain ⟨rfl, nonzero⟩ := left
      have mantissaPos : 0 < mantissa := Nat.pos_of_ne_zero (by simpa using nonzero)
      have powerPos (n : Nat) : 0 < Nat.pow 2 n := Nat.pow_pos (by decide)
      simp only [toRat?, Binary64.toRat?, Bool.false_eq_true, if_false, Option.some.injEq] at exact
      subst exact
      split
      · have whole : 0 < mantissa * Nat.pow 2 exponent.toNat := Nat.mul_pos mantissaPos (powerPos _)
        exact_mod_cast whole
      · exact Rat.mkRat_pos (by exact_mod_cast mantissaPos) (powerPos _).ne'

/-- The limit that a finite time sets is that time, and it is ahead. -/
theorem limit_eq_ok {seconds : Seconds} {limit : Limit} {value : Rat}
    (exact : seconds.toRat? = some value) (set : seconds.limit = .ok limit) :
    limit = .atMost value ∧ 0 < value := by
  unfold Seconds.limit at set
  split at set
  case isTrue => cases set
  case isFalse left =>
    have ahead : 0 < value := toRat?_pos (Bool.eq_false_iff.mpr left) exact
    refine ⟨?_, ahead⟩
    split at set
    case h_1 whole =>
      split at set
      · cases exact
        cases set
        rfl
      · cases set
    case h_2 => cases exact
    case h_3 real _ =>
      have same : real.toRat? = some value := exact
      rw [same] at set
      cases set
      rfl

/-- No limit is in the past. -/
theorem limit_ahead {seconds : Seconds} {value : Rat} (set : seconds.limit = .ok (.atMost value)) :
    0 ≤ value := by
  cases exact : seconds.toRat? with
  | some other =>
    obtain ⟨same, ahead⟩ := limit_eq_ok exact set
    cases same
    exact ahead.le
  | none =>
    cases seconds with
    | whole value => cases exact
    | real real =>
      have none : real.toRat? = none := exact
      unfold Seconds.limit at set
      split at set
      · cases set
      · split at set
        · cases ‹Seconds.real real = .whole _›
        · cases set
        · rename_i other _ same
          cases same
          rw [none] at set
          cases set

end Seconds

/-! ## Time limits -/

namespace Procedure

variable {α β : Type} {seconds : Seconds}

/-- A procedure that waits for exchanges only, each of them under one time limit, if that can be set. -/
def Limited (seconds : Seconds) : Procedure α → Prop
  | .done _ => True
  | .cancelled => True
  | .record _ next => next.Limited seconds
  | .clock next => ∀ now, (next now).Limited seconds
  | .pause _ _ _ => False
  | .connect _ _ next => ∀ client, (next client).Limited seconds
  | .exchange _ _ limit next stopped =>
    seconds.limit = .ok limit ∧ (∀ answer, (next answer).Limited seconds) ∧ stopped.Limited seconds

theorem Limited.bind {procedure : Procedure α} {f : α → Procedure β}
    (first : procedure.Limited seconds) (second : ∀ value, (f value).Limited seconds) :
    (procedure >>= f).Limited seconds := by
  show (procedure.bind f).Limited seconds
  induction procedure with
  | done value => exact second value
  | cancelled => trivial
  | record note next ih => exact ih first
  | clock next ih => exact fun now => ih now (first now)
  | pause wait next stopped _ _ => exact first.elim
  | connect base readTimeout next ih => exact fun client => ih client (first client)
  | exchange client request limit next stopped ih ihStopped =>
    obtain ⟨set, rest, last⟩ := first
    exact ⟨set, fun answer => ih answer (rest answer), ihStopped last⟩

theorem Limited.onward {procedure : Procedure α} (limited : procedure.Limited seconds) :
    procedure.Onward := by
  induction procedure with
  | done value => trivial
  | cancelled => trivial
  | record note next ih => exact ih limited
  | clock next ih => exact fun now => ih now (limited now)
  | pause wait next stopped _ _ => exact limited.elim
  | connect base readTimeout next ih => exact fun client => ih client (limited client)
  | exchange client request limit next stopped ih _ =>
    obtain ⟨set, rest, -⟩ := limited
    refine ⟨fun bound given => ?_, fun answer => ih answer (rest answer)⟩
    rw [given] at set
    exact Seconds.limit_ahead set

theorem limited_composes (seconds : Seconds) :
    Composes fun _ procedure => procedure.Limited seconds :=
  ⟨fun _ => trivial, fun _ => trivial, Limited.bind⟩

theorem onward_composes : Composes fun _ procedure => procedure.Onward :=
  ⟨fun _ => trivial, fun _ => trivial, Onward.bind⟩

end Procedure

/-! ## Lookups -/

namespace Identity

variable (policy : AccessPolicy) (request : String) (token : List Char)

theorem get_limited (client : Client) (path : List Char) :
    (get policy client path token).Limited policy.timeout := by
  unfold get
  cases set : policy.timeout.limit with
  | error fault => trivial
  | ok limit =>
    dsimp only
    split
    · trivial
    · exact ⟨set, fun _ => trivial, trivial⟩

theorem verify_limited (depth : Nat) :
    (verify policy request token depth).Limited policy.timeout :=
  verify_composes (Procedure.limited_composes policy.timeout) (fun _ => trivial)
    (get_limited policy token) request depth

end Identity

/-! ## Engines -/

namespace Engine

variable {engine : Engine} {context : RequestContext} {credential : Credential}

/-- The engines that there are: the standard one of a policy, and a chain of verifiers that come to
given results after given times. -/
inductive Made : Engine → Prop where
  | standard (policy : AccessPolicy) (reading : Rat) (depth : Nat) :
    Made (ofPolicy policy reading depth)
  | delayed {engine : Engine}
    (chain : ∀ verifier ∈ engine.verifiers, ∃ name delay result, 0 ≤ delay ∧
      verifier = Verifier.scripted name delay result) : Made engine

theorem ofPolicy_limited (policy : AccessPolicy) (reading : Rat) (depth : Nat)
    (context : RequestContext) (credential : Credential) {verifier : Verifier}
    (member : verifier ∈ (ofPolicy policy reading depth).verifiers) :
    (verifier.verify context credential).Limited policy.timeout := by
  rcases mem_verifiers_ofPolicy member with rfl | rfl
  · simp only [Verifier.claims]
    split
    · trivial
    · split <;> trivial
  · exact Identity.verify_limited policy context.id credential.value depth

theorem Made.onward_verify (made : engine.Made) (context : RequestContext) (credential : Credential)
    (verifier : Verifier) (member : verifier ∈ engine.verifiers) :
    (verifier.verify context credential).Onward := by
  cases made with
  | standard policy reading depth =>
    exact (ofPolicy_limited policy reading depth context credential member).onward
  | delayed chain =>
    obtain ⟨name, delay, result, ahead, rfl⟩ := chain verifier member
    exact ⟨ahead, trivial⟩

theorem Made.onward_authorize (made : engine.Made) (context : RequestContext)
    (credential : Option Credential) : (engine.authorize context credential).Onward :=
  authorize_composes Procedure.onward_composes (fun _ => trivial) (made.onward_verify context)
    credential

theorem Made.onward_authorizeHeader (made : engine.Made) (context : RequestContext)
    (header : Option (List Char)) : (engine.authorizeHeader context header).Onward :=
  authorizeHeader_composes Procedure.onward_composes (fun _ => trivial) (made.onward_verify context)
    header

end Engine

end RegistryGate
