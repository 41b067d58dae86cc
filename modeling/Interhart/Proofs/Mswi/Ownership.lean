import Interhart.Proofs.Mswi.Copies

/-!
# The register of a hart

Each hart that a software-interrupt device serves is to have a register of its own, so that an
interrupt is pending on a hart if and only if it has been raised there and not been cleared
since.  The windows of a valid description keep the copies of the register block away from the
primary one, but not from each other.  So it depends on the offsets of the windows whether
harts share a register.
-/

namespace Interhart
namespace Mswi

/-!
# Calls

A device is called to raise and to clear interrupts.  The last call to a register decides what
it shows.
-/

inductive Call
  | raise (hart : Nat)
  | clear (hart : Nat)
deriving DecidableEq

namespace Call

def hart : Call → Nat
  | raise hart => hart
  | clear hart => hart

def raises : Call → Bool
  | raise _ => true
  | clear _ => false

def word : Call → UInt32
  | raise _ => 1
  | clear _ => 0

theorem word_and_one (call : Call) : (call.word &&& 1 != 0) = call.raises := by
  cases call with
  | raise hart =>
      show ((1 : UInt32) &&& 1 != 0) = true
      decide
  | clear hart =>
      show ((0 : UInt32) &&& 1 != 0) = false
      decide

def run (config : Config) : Call → EStateM Exit Bus Unit
  | raise hart => config.raise hart
  | clear hart => config.clear hart

end Call

def lastTo? (reached : Nat → Bool) (calls : List Call) : Option Call :=
  calls.reverse.find? fun call => reached call.hart

theorem lastTo?_cons (reached : Nat → Bool) (call : Call) (calls : List Call) :
    lastTo? reached (call :: calls) =
      match lastTo? reached calls with
      | some later => some later
      | none => if reached call.hart then some call else none := by
  unfold lastTo?
  rw [List.reverse_cons, List.find?_append, List.find?_singleton]
  cases calls.reverse.find? fun call => reached call.hart with
  | none => rfl
  | some later => rfl

def raisedLast (reached : Nat → Bool) (calls : List Call) : Bool :=
  (lastTo? reached calls).any Call.raises

namespace Config

variable {config : Config} {hart other : Nat} {address : UInt64}

def Quiet (config : Config) (bus : Bus) : Prop :=
  ∀ hart address, config.register? hart = some address → bus.peek address = 0

def Shows (config : Config) (hart : Nat) (bus : Bus) (pending : Option Bool) : Prop :=
  ∃ left, (config.isPending hart : EStateM Exit Bus (Option Bool)) bus = .ok pending left

/-- Each hart has a register that only calls to it write, so the last one of them decides
whether an interrupt is pending on the hart. -/
structure OwnsRegisters (config : Config) : Prop where
  apart : ∀ hart other, config.serves hart = true → config.serves other = true → hart ≠ other →
    config.register? hart ≠ config.register? other
  writes : ∀ (call : Call) (bus : Bus), call.run config bus =
    .ok () (((config.register? call.hart).map (bus.poke · call.word)).getD bus)
  pending : ∀ (calls : List Call) (bus : Bus), config.Quiet bus →
    ∃ after, calls.forM (Call.run config) bus = .ok () after ∧
      ∀ hart, config.Shows hart after
        (if config.serves hart then some (raisedLast (· == hart) calls) else none)

/-!
# What calls leave
-/

theorem mod_four_register (h : config.Aligned)
    (haddress : config.register? hart = some address) : address % 4 = 0 := by
  have hcopy := dvd_add h.base (dvd_offset h hart)
  apply mod_four_of_dvd
  rw [toNat_register h haddress]
  omega

theorem write_apply (h : config.Aligned) (hart : Nat) (value : UInt32) (bus : Bus) :
    (config.write hart value : EStateM Exit Bus Unit) bus =
      .ok () (((config.register? hart).map (bus.poke · value)).getD bus) := by
  unfold write
  cases haddress : config.register? hart with
  | none => rfl
  | some address =>
      dsimp only
      unfold store32
      rw [if_pos (mod_four_register h haddress)]
      rfl

theorem run_apply (h : config.Aligned) (call : Call) (bus : Bus) :
    call.run config bus =
      .ok () (((config.register? call.hart).map (bus.poke · call.word)).getD bus) := by
  cases call with
  | raise hart => exact write_apply h hart 1 bus
  | clear hart => exact write_apply h hart 0 bus

theorem forM_run_apply (h : config.Aligned) (calls : List Call) (bus : Bus) :
    ∃ after, calls.forM (Call.run config) bus = .ok () after ∧ ∀ address, after.peek address =
      ((lastTo? (fun hart => config.register? hart = some address) calls).map Call.word).getD
        (bus.peek address) := by
  induction calls generalizing bus with
  | nil => exact ⟨bus, rfl, fun _ => rfl⟩
  | cons call calls ih =>
      rcases ih (((config.register? call.hart).map (bus.poke · call.word)).getD bus) with
        ⟨after, hcalls, hpeek⟩
      refine ⟨after, (bind_of_ok (run_apply h call bus)).trans hcalls, fun address => ?_⟩
      rw [hpeek address, lastTo?_cons]
      cases lastTo? (fun hart => config.register? hart = some address) calls with
      | some later => rfl
      | none =>
          dsimp only
          by_cases hreached : config.register? call.hart = some address
          · rw [if_pos (decide_eq_true hreached), hreached]
            exact bus.peek_poke_self address call.word
          · rw [if_neg (by rwa [decide_eq_true_eq])]
            cases hregister : config.register? call.hart with
            | none => rfl
            | some register =>
                rw [hregister, Option.some.injEq] at hreached
                exact bus.peek_poke_of_ne (Ne.symm hreached) call.word

theorem isPending_apply (h : config.Aligned) (haddress : config.register? hart = some address)
    (bus : Bus) :
    (config.isPending hart : EStateM Exit Bus (Option Bool)) bus =
      .ok (some (bus.peek address &&& 1 != 0)) (bus.tick address) := by
  unfold isPending
  rw [haddress]
  dsimp only
  unfold load32
  rw [if_pos (mod_four_register h haddress)]
  rfl

theorem isPending_of_not_serves (hserves : config.serves hart = false) (bus : Bus) :
    (config.isPending hart : EStateM Exit Bus (Option Bool)) bus = .ok none bus := by
  unfold isPending
  rw [register?_of_not_serves hserves]
  rfl

theorem isPending_after_calls (h : config.Aligned) (calls : List Call) {bus : Bus}
    (hquiet : config.Quiet bus) :
    ∃ after, calls.forM (Call.run config) bus = .ok () after ∧
      ∀ hart, config.Shows hart after
        (if config.serves hart then
          some (raisedLast (fun other => config.register? other = config.register? hart) calls)
        else none) := by
  rcases forM_run_apply h calls bus with ⟨after, hcalls, hpeek⟩
  refine ⟨after, hcalls, fun hart => ?_⟩
  cases hserves : config.serves hart with
  | false => exact ⟨after, isPending_of_not_serves hserves after⟩
  | true =>
      rcases Option.isSome_iff_exists.mp (isSome_register? hserves) with ⟨address, haddress⟩
      have hshown : (after.peek address &&& 1 != 0) =
          raisedLast (fun other => config.register? other = config.register? hart) calls := by
        rw [hpeek, hquiet hart address haddress, ← haddress]
        unfold raisedLast
        cases lastTo? (fun other => config.register? other = config.register? hart) calls with
        | none => rfl
        | some call => exact call.word_and_one
      rw [if_pos rfl, ← hshown]
      exact ⟨after.tick address, isPending_apply h haddress after⟩

/-!
# Harts that share a register
-/

theorem register?_eq_iff_offset (h : config.Aligned) (hserves : config.serves hart = true)
    (hother : config.serves other = true) :
    config.register? hart = config.register? other ↔
      config.offset hart = config.offset other ∧ config.place hart = config.place other := by
  have haddress := register?_of_serves hserves
  have haddress' := register?_of_serves hother
  constructor
  · intro hsame
    have hhart := toNat_register h haddress
    have hcopy := dvd_add h.base (dvd_offset h hart)
    have hcopy' := dvd_add h.base (dvd_offset h other)
    have hplace := place_lt h hserves
    have hplace' := place_lt h hother
    have hcount := h.count
    have hlimit : hartLimit = 128 := rfl
    rw [toNat_register h (hsame.symm.trans haddress)] at hhart
    have hpage : (config.base + config.offset hart).toNat =
        (config.base + config.offset other).toNat := by
      omega
    exact ⟨(UInt64.add_right_inj config.base).mp (UInt64.toNat_inj.mp hpage), by omega⟩
  · intro hsame
    rw [haddress, haddress', hsame.1, hsame.2]

theorem register?_eq_iff_coincide (h : config.Aligned) (hserves : config.serves hart = true)
    (hother : config.serves other = true) (hne : hart ≠ other) :
    config.register? hart = config.register? other ↔
      DieWindow.Coincide config.windows hart other := by
  rw [register?_eq_iff_offset h hserves hother]
  constructor
  · intro hsame
    exact DieWindow.coincide_of_eq h.windows (HartRange.contains_iff.mp hserves).1
      (HartRange.contains_iff.mp hother).1 hne hsame.1 hsame.2
  · exact DieWindow.Coincide.eq config.harts.first

theorem nodup_offsets_iff (h : config.Aligned) :
    (config.windows.map (·.offset)).Nodup ↔
      ∀ hart other, config.serves hart = true → config.serves other = true → hart ≠ other →
        config.register? hart ≠ config.register? other := by
  rw [DieWindow.nodup_offsets_iff h.windows]
  constructor
  · intro hapart hart other hserves hother hne hsame
    exact hapart hart other (HartRange.contains_iff.mp hserves)
      (HartRange.contains_iff.mp hother)
      ((register?_eq_iff_coincide h hserves hother hne).mp hsame)
  · intro hapart hart other hhart hother hcoincide
    have hserves := HartRange.contains_iff.mpr hhart
    have hserves' := HartRange.contains_iff.mpr hother
    exact hapart hart other hserves hserves' hcoincide.ne
      ((register?_eq_iff_coincide h hserves hserves' hcoincide.ne).mpr hcoincide)

theorem ownsRegisters_iff (h : config.Aligned) :
    config.OwnsRegisters ↔ (config.windows.map (·.offset)).Nodup := by
  rw [nodup_offsets_iff h]
  constructor
  · exact OwnsRegisters.apart
  · intro hapart
    refine ⟨hapart, run_apply h, fun calls bus hquiet => ?_⟩
    rcases isPending_after_calls h calls hquiet with ⟨after, hcalls, hpending⟩
    refine ⟨after, hcalls, fun hart => ?_⟩
    have hshows := hpending hart
    cases hserves : config.serves hart with
    | false =>
        rw [hserves] at hshows
        exact hshows
    | true =>
        have hreached : (fun other => decide (config.register? other = config.register? hart)) =
            (· == hart) := by
          funext other
          rw [Bool.eq_iff_iff, decide_eq_true_eq, beq_iff_eq]
          constructor
          · intro hsame
            by_contra hne
            have hother : config.serves other = true :=
              serves_of_isSome_register? (hsame ▸ isSome_register? hserves)
            exact hapart other hart hother hserves hne hsame
          · exact congrArg config.register?
        rw [hserves, hreached] at hshows
        exact hshows

/-- Harts own their registers exactly if no two windows have the same offset.  Whatever the
offsets are, calls write registers of harts and nothing else, harts share a register if they
have the same place behind windows with the same offset, and the last call to a register
decides what is pending on all its harts. -/
theorem ownership (hvalid : config.isValid = true) :
    (config.OwnsRegisters ↔ (config.windows.map (·.offset)).Nodup) ∧
      (∀ (call : Call) (bus : Bus), call.run config bus =
        .ok () (((config.register? call.hart).map (bus.poke · call.word)).getD bus)) ∧
      (∀ hart other, config.serves hart = true → config.serves other = true → hart ≠ other →
        (config.register? hart = config.register? other ↔
          DieWindow.Coincide config.windows hart other)) ∧
      ∀ (calls : List Call) (bus : Bus), config.Quiet bus →
        ∃ after, calls.forM (Call.run config) bus = .ok () after ∧
          ∀ hart, config.Shows hart after
            (if config.serves hart then
              some (raisedLast
                (fun other => config.register? other = config.register? hart) calls)
            else none) := by
  have h := aligned_of_isValid hvalid
  refine ⟨ownsRegisters_iff h, run_apply h, ?_, ?_⟩
  · intro hart other hserves hother hne
    exact register?_eq_iff_coincide h hserves hother hne
  · intro calls bus hquiet
    exact isPending_after_calls h calls hquiet

def threeDies (second third : UInt64) : Config :=
  { base := 0x1000, size := 0x1000, harts := ⟨0, 12⟩, windows := [⟨4, second⟩, ⟨8, third⟩] }

theorem ownership_threeDies :
    (threeDies 0x2000 0x4000).isValid = true ∧ (threeDies 0x2000 0x4000).OwnsRegisters := by
  have hvalid : (threeDies 0x2000 0x4000).isValid = true := by decide
  exact ⟨hvalid, (ownership hvalid).1.mpr (by decide)⟩

/-- Two dies of a valid description have the same copy of the registers, so an interrupt that
is raised on one hart is pending on another one as well, on which none has been raised. -/
theorem shared_register_threeDies :
    (threeDies 0x2000 0x2000).isValid = true ∧
      (threeDies 0x2000 0x2000).serves 4 = true ∧ (threeDies 0x2000 0x2000).serves 8 = true ∧
      (threeDies 0x2000 0x2000).register? 4 = (threeDies 0x2000 0x2000).register? 8 ∧
      raisedLast (· == 8) [.raise 4] = false ∧
      ∃ after, [Call.raise 4].forM (Call.run (threeDies 0x2000 0x2000)) {} = .ok () after ∧
        (threeDies 0x2000 0x2000).Shows 8 after (some true) := by
  have hvalid : (threeDies 0x2000 0x2000).isValid = true := by decide
  refine ⟨hvalid, rfl, rfl, by decide, rfl, ?_⟩
  have hquiet : (threeDies 0x2000 0x2000).Quiet {} := fun _ _ _ => rfl
  rcases isPending_after_calls (aligned_of_isValid hvalid) [.raise 4] hquiet with
    ⟨after, hcalls, hpending⟩
  exact ⟨after, hcalls, hpending 8⟩

end Config
end Mswi
end Interhart
