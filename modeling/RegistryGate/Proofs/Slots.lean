import RegistryGate.Client

/-!
# The life of a client slot

Whatever a verifier has done before, a client that it holds is open and on the address that it was
made for (`Life.sound`). So whoever gets hold of the client gets an open one on that address, and
fails to only if the address is none (`Sound.ensure_eq`).
-/

namespace RegistryGate.ClientSlot

variable {own address : List Char} {readTimeout : Seconds} {slot : ClientSlot}

/-- The slots that a verifier comes to whose client is on an address. The first argument is the
address that it opens clients on itself. -/
inductive Life (own : List Char) (readTimeout : Seconds) : List Char → ClientSlot → Prop where
  | owner : Life own readTimeout own ofOwner
  | injected {address : List Char} {slot : ClientSlot} (made : injected address = .ok slot) :
    Life own readTimeout address slot
  | ensured {address : List Char} {slot : ClientSlot} (life : Life own readTimeout address slot) :
    Life own readTimeout address (slot.ensure own readTimeout).2
  | closed {address : List Char} {slot : ClientSlot} (life : Life own readTimeout address slot) :
    Life own readTimeout address slot.close

/-- What holds of a slot throughout its life. -/
structure Sound (own address : List Char) (slot : ClientSlot) : Prop where
  /-- A client that is held is on the address, and it is not among the closed ones. -/
  held : ∀ client, slot.held = some client →
    Url.base? address = some client.base ∧ client.number < slot.opened ∧
      client.number ∉ slot.closed
  closed : ∀ number ∈ slot.closed, number < slot.opened
  owner : slot.owned = true → address = own
  kept : slot.owned = false → slot.held ≠ none

theorem newClient_eq_ok {number : Nat} {client : Client}
    (made : newClient number address readTimeout = .ok client) :
    Url.base? address = some client.base ∧ client.number = number := by
  unfold newClient at made
  split at made
  case h_1 url parsed =>
    cases made
    exact ⟨parsed, rfl⟩
  case h_2 => cases made

theorem newClient_eq_error {number : Nat} {fault : Fault}
    (failed : newClient number address readTimeout = .error fault) :
    Url.base? address = none ∧ fault = .invalidUrl := by
  unfold newClient at failed
  split at failed
  case h_1 => cases failed
  case h_2 unparsed =>
    cases failed
    exact ⟨unparsed, rfl⟩

theorem sound_ofOwner : Sound own own ofOwner where
  held _ held := by cases held
  closed _ member := absurd member List.not_mem_nil
  owner _ := rfl
  kept injected := by cases injected

theorem sound_injected (made : injected address = .ok slot) : Sound own address slot := by
  unfold injected at made
  cases created : newClient 0 address standardTimeout with
  | error fault =>
    rw [created] at made
    cases made
  | ok client =>
    rw [created] at made
    cases made
    obtain ⟨parsed, number⟩ := newClient_eq_ok created
    refine ⟨?_, fun _ member => absurd member List.not_mem_nil, ?_, ?_⟩
    · rintro other ⟨⟩
      exact ⟨parsed, by rw [number]; exact Nat.zero_lt_one, List.not_mem_nil⟩
    · rintro ⟨⟩
    · rintro - ⟨⟩

/-- The slots of new verifiers. The client is the verifier's own, or it is handed to it. -/
inductive Fresh (own : List Char) : List Char → ClientSlot → Prop where
  | owner : Fresh own own ofOwner
  | injected {address : List Char} {slot : ClientSlot} (made : injected address = .ok slot) :
    Fresh own address slot

theorem Fresh.sound (fresh : Fresh own address slot) : Sound own address slot := by
  cases fresh with
  | owner => exact sound_ofOwner
  | injected made => exact sound_injected made

/-- Getting hold of the client gives an open one on the address, which is held from then on, unless
the address is none. -/
theorem Sound.ensure_eq (sound : Sound own address slot) (readTimeout : Seconds) :
    (∃ client after, slot.ensure own readTimeout = (.ok client, after) ∧ Sound own address after ∧
      after.held = some client) ∨
    (slot.ensure own readTimeout = (.error .invalidUrl, slot) ∧ Url.base? address = none) := by
  cases held : slot.held with
  | some client =>
    refine .inl ⟨client, slot, ?_, sound, held⟩
    simp only [ensure, held]
  | none =>
    have owned : slot.owned = true := by
      cases owned : slot.owned with
      | true => rfl
      | false => exact absurd held (sound.kept owned)
    obtain rfl := sound.owner owned
    cases created : newClient slot.opened address readTimeout with
    | error fault =>
      obtain ⟨unparsed, rfl⟩ := newClient_eq_error created
      refine .inr ⟨?_, unparsed⟩
      simp only [ensure, held, created]
    | ok client =>
      obtain ⟨parsed, number⟩ := newClient_eq_ok created
      refine .inl ⟨client, { slot with held := some client, opened := slot.opened + 1 }, ?_, ?_, rfl⟩
      · simp only [ensure, held, created]
      · refine ⟨?_, fun other member => Nat.lt_succ_of_lt (sound.closed other member),
          fun _ => rfl, ?_⟩
        · rintro other ⟨⟩
          refine ⟨parsed, by rw [number]; exact Nat.lt_succ_self _, fun member => ?_⟩
          -- The number of a new client is the count so far, which no closed client reaches.
          have below := sound.closed _ member
          rw [number] at below
          exact Nat.lt_irrefl _ below
        · rintro - ⟨⟩

theorem Sound.ensure (sound : Sound own address slot) :
    Sound own address (slot.ensure own readTimeout).2 := by
  rcases sound.ensure_eq readTimeout with ⟨client, after, ended, alsoSound, -⟩ | ⟨ended, -⟩
  · rw [ended]
    exact alsoSound
  · rw [ended]
    exact sound

theorem closed_ensure (slot : ClientSlot) (own : List Char) (readTimeout : Seconds) :
    (slot.ensure own readTimeout).2.closed = slot.closed := by
  unfold ensure
  split
  · rfl
  · split <;> rfl

theorem owned_ensure (slot : ClientSlot) (own : List Char) (readTimeout : Seconds) :
    (slot.ensure own readTimeout).2.owned = slot.owned := by
  unfold ensure
  split
  · rfl
  · split <;> rfl

theorem owned_close (slot : ClientSlot) : slot.close.owned = slot.owned := by
  unfold ClientSlot.close
  split
  · split <;> rfl
  · rfl

/-- The slots that a slot comes to while its client is asked for, any number of times. -/
inductive Ensured (own : List Char) (slot : ClientSlot) : ClientSlot → Prop where
  | refl : Ensured own slot slot
  | ensure {later : ClientSlot} (before : Ensured own slot later) (readTimeout : Seconds) :
    Ensured own slot (later.ensure own readTimeout).2

namespace Ensured

variable {after third : ClientSlot}

theorem trans (first : Ensured own slot after) (second : Ensured own after third) :
    Ensured own slot third := by
  induction second with
  | refl => exact first
  | ensure _ readTimeout ih => exact ih.ensure readTimeout

theorem sound (ensured : Ensured own slot after) (sound : Sound own address slot) :
    Sound own address after := by
  induction ensured with
  | refl => exact sound
  | ensure _ _ ih => exact ih.ensure

theorem owned (ensured : Ensured own slot after) : after.owned = slot.owned := by
  induction ensured with
  | refl => rfl
  | ensure _ readTimeout ih => exact (owned_ensure _ own readTimeout).trans ih

theorem isClosed (ensured : Ensured own slot after) (client : Client) :
    after.isClosed client = slot.isClosed client := by
  induction ensured with
  | refl => rfl
  | ensure _ readTimeout ih =>
    rw [← ih, ClientSlot.isClosed, closed_ensure]
    rfl

/-- A client that is held stays. -/
theorem held {client : Client} (ensured : Ensured own slot after) (held : slot.held = some client) :
    after.held = some client := by
  induction ensured with
  | refl => exact held
  | ensure _ readTimeout ih =>
    simp only [ClientSlot.ensure, ih]

end Ensured

theorem Sound.close (sound : Sound own address slot) : Sound own address slot.close := by
  unfold ClientSlot.close
  cases held : slot.held with
  | none => exact sound
  | some client =>
    obtain ⟨-, below, -⟩ := sound.held client held
    dsimp only
    split
    case isTrue owned =>
      refine ⟨fun _ gone => ?_, fun number member => ?_, sound.owner, fun injected => ?_⟩
      · cases gone
      · rcases List.mem_cons.mp member with rfl | earlier
        · exact below
        · exact sound.closed number earlier
      · rw [owned] at injected
        cases injected
    case isFalse => exact sound

/-- A verifier that opens its clients itself closes the one that it holds. -/
theorem isClosed_close_of_owned {client : Client} (owned : slot.owned = true)
    (held : slot.held = some client) : slot.close.isClosed client = true := by
  simp only [isClosed, ClientSlot.close, held, owned, if_true, List.contains_cons, BEq.rfl,
    Bool.true_or]

/-- A client that was handed to a verifier is not closed. -/
theorem close_of_handed (handed : slot.owned = false) : slot.close = slot := by
  unfold ClientSlot.close
  split
  · rw [handed]
    rfl
  · rfl

theorem isClosed_close {client : Client} (closed : slot.isClosed client = true) :
    slot.close.isClosed client = true := by
  unfold ClientSlot.isClosed at closed ⊢
  unfold ClientSlot.close
  split
  · split
    · rw [List.contains_cons, closed, Bool.or_true]
    · exact closed
  · exact closed

theorem Life.sound (life : Life own readTimeout address slot) : Sound own address slot := by
  induction life with
  | owner => exact sound_ofOwner
  | injected made => exact sound_injected made
  | ensured _ ih => exact ih.ensure
  | closed _ ih => exact ih.close

theorem Sound.isClosed (sound : Sound own address slot) {client : Client}
    (held : slot.held = some client) : slot.isClosed client = false := by
  unfold ClientSlot.isClosed
  rw [← Bool.not_eq_true, List.contains_iff_mem]
  exact (sound.held client held).2.2

end RegistryGate.ClientSlot
