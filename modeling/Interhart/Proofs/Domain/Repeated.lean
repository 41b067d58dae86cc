import Interhart.Proofs.Machine.Protecting

/-!
# Protecting a range again

A range that is protected once more at once meets every piece that it has recorded, and records
none.  So it ends as it did before and leaves the table alone, also where the table is full or
the range runs over the end of the address space.  Only the log may make a difference, which
tells of new regions alone.
-/

namespace Interhart

section Repeating

variable {σ α : Type} {operation : EStateM Exit σ α} {s t : σ}

/-- If an operation is run again at once, it ends as before and changes nothing. -/
def Repeats (operation : EStateM Exit σ α) (s : σ) : Prop :=
  operation (finalState operation s) = operation s

theorem repeats_of_ok {value : α} (hrun : operation s = .ok value t)
    (hagain : operation t = .ok value t) : Repeats operation s := by
  unfold Repeats finalState
  rw [hrun]
  exact hagain

theorem repeats_of_error {exit : Exit} (hrun : operation s = .error exit t)
    (hagain : operation t = .error exit t) : Repeats operation s := by
  unfold Repeats finalState
  rw [hrun]
  exact hagain

end Repeating

/-!
# Steps that need not be taken again
-/

section Settling

variable {σ ι : Type}

/-- Each step settles an item.  It does nothing if the item is settled, and never unsettles
one.  Where it ends by an exit of its own, it has done nothing either. -/
structure Settles (settled : ι → σ → Prop) (own : Exit → Prop)
    (step : ι → EStateM Exit σ Unit) : Prop where
  done : ∀ {item s t}, step item s = .ok () t → settled item t
  idle : ∀ {item s}, settled item s → step item s = .ok () s
  lasts : ∀ item other, Keeps (settled item) (step other)
  stops : ∀ {item s t exit}, step item s = .error exit t → own exit → t = s

namespace Settles

variable {settled : ι → σ → Prop} {own : Exit → Prop} {step : ι → EStateM Exit σ Unit}
  (h : Settles settled own step) {items : List ι} {s t : σ}

include h

theorem keeps_forM (item : ι) (items : List ι) : Keeps (settled item) (items.forM step) :=
  .forM fun other _ => h.lasts item other

theorem forM_idle (hsettled : ∀ item ∈ items, settled item s) :
    items.forM step s = .ok () s := by
  induction items with
  | nil => rfl
  | cons item items ih =>
      rcases List.forall_mem_cons.mp hsettled with ⟨hitem, hitems⟩
      exact (bind_of_ok (h.idle hitem)).trans (ih hitems)

theorem forM_done (hrun : items.forM step s = .ok () t) : ∀ item ∈ items, settled item t := by
  induction items generalizing s with
  | nil => exact fun _ hmem => absurd hmem List.not_mem_nil
  | cons item items ih =>
      rcases ok_of_bind_ok hrun with ⟨_, middle, hstep, hrest⟩
      have hlasts := h.keeps_forM item items
      exact List.forall_mem_cons.mpr ⟨hlasts.of_ok (h.done hstep) hrest, ih hrest⟩

/-- The steps that were taken are idle the next time, and the one that could not
be taken still cannot. -/
theorem forM_stops {exit : Exit} (hrun : items.forM step s = .error exit t) (hown : own exit) :
    items.forM step t = .error exit t := by
  induction items generalizing s with
  | nil => cases hrun
  | cons item items ih =>
      have hlasts := h.keeps_forM item items
      cases hstep : step item s with
      | ok value middle =>
          have hrest : items.forM step middle = .error exit t :=
            (bind_of_ok hstep).symm.trans hrun
          have hitem : settled item t := hlasts.of_error (h.done hstep) hrest
          exact (bind_of_ok (h.idle hitem)).trans (ih hrest)
      | error found middle =>
          have hfound : EStateM.Result.error found middle = .error exit t :=
            (bind_of_error hstep).symm.trans hrun
          cases hfound
          rw [h.stops hstep hown] at hrun ⊢
          exact hrun

end Settles

theorem Settles.repeats_protectWith {settled : Region → σ → Prop} {own : Exit → Prop}
    {step : Region → EStateM Exit σ Unit} (h : Settles settled own step)
    {base size largest : Nat}
    {s : σ}
    (hown : ∀ {exit t},
      Domain.protectWith step base size largest s = .error exit t → own exit) :
    Repeats (Domain.protectWith step base size largest) s := by
  unfold Domain.protectWith at hown ⊢
  split
  · rw [if_pos ‹_›] at hown
    rw [Domain.recordPieces_eq] at hown ⊢
    generalize Domain.pieces base (min (base + size) lastAddress) largest.log2 =
      regions at hown ⊢
    cases hrun : regions.forM step s with
    | error exit t =>
        have hstops := h.forM_stops hrun (hown (bind_of_error hrun))
        exact repeats_of_error (bind_of_error hrun) (bind_of_error hstops)
    | ok value t =>
        have hidle := h.forM_idle (h.forM_done hrun)
        split
        · exact repeats_of_error (bind_of_ok hrun) (bind_of_ok hidle)
        · exact repeats_of_ok (bind_of_ok hrun) (bind_of_ok hidle)
  · exact repeats_of_error rfl rfl

end Settling

/-!
# Tables
-/

namespace Domain

/-- The ends of a range that is not protected, other than those that the log brings about. -/
def OwnExit (exit : Exit) : Prop :=
  exit = .refused .tableFull ∨ exit = .fault .sumOverflow ∨ exit = .fault .unevenPiece

instance : DecidablePred OwnExit := fun _ => inferInstanceAs (Decidable (_ ∨ _))

theorem ok_of_recordStep {domain grown : Domain} {region : Region}
    (h : recordStep region domain = .ok () grown) : domain.record region = .ok grown := by
  unfold recordStep at h
  cases hrecord : domain.record region with
  | ok found =>
      rw [hrecord] at h
      cases h
      rfl
  | error error =>
      rw [hrecord] at h
      cases h

theorem error_of_recordStep {domain left : Domain} {region : Region} {exit : Exit}
    (h : recordStep region domain = .error exit left) :
    left = domain ∧ exit = .refused .tableFull := by
  unfold recordStep at h
  cases hrecord : domain.record region with
  | ok found =>
      rw [hrecord] at h
      cases h
  | error error =>
      rw [hrecord] at h
      cases h
      rw [(full_of_record hrecord).1]
      exact ⟨rfl, rfl⟩

theorem record_of_mem {domain : Domain} {region : Region} (h : region ∈ domain.regions) :
    domain.record region = .ok domain := record_eq_ok_iff.mpr (.inl ⟨h, rfl⟩)

theorem mem_of_mem_of_record {domain grown : Domain} {region other : Region}
    (h : domain.record other = .ok grown) (hmem : region ∈ domain.regions) :
    region ∈ grown.regions :=
  (Grown.record (List.mem_singleton_self other) h).subset hmem

theorem settles_recordStep :
    Settles (fun region domain => region ∈ domain.regions) OwnExit recordStep where
  done hstep := mem_of_record (ok_of_recordStep hstep)
  idle hmem := by
    unfold recordStep
    rw [record_of_mem hmem]
  lasts region other domain hmem := by
    cases hstep : recordStep other domain with
    | ok value grown => exact mem_of_mem_of_record (ok_of_recordStep hstep) hmem
    | error exit left =>
        rw [(error_of_recordStep hstep).1]
        exact hmem
  stops hstep _ := (error_of_recordStep hstep).1

theorem contract_protect (base size largest : Nat) :
    Contract (fun _ => True) (protect base size largest) (fun _ _ => True)
      fun exit _ => OwnExit exit ∧
        (isPowerOfTwo largest = true → exit ≠ .fault .unevenPiece) := by
  unfold protect protectWith
  split
  · rw [recordPieces_eq]
    refine (Contract.forM fun region _ => ?_).bind fun _ => ?_
    · intro domain _
      cases hstep : recordStep region domain with
      | ok value grown => trivial
      | error exit left =>
          rw [(error_of_recordStep hstep).2]
          exact ⟨by decide, fun _ => by decide⟩
    · split
      · exact Contract.exit fun _ _ => ⟨by decide, fun _ => by decide⟩
      · exact Contract.value fun _ _ => trivial
  · exact Contract.exit fun _ _ => ⟨by decide, fun hpower => absurd hpower ‹_›⟩

end Domain

namespace Bench

/-!
# The log
-/

def Foreign {α : Type} (step : BenchM α) : Prop :=
  Contract (fun _ => True) step (fun _ _ => True) fun exit _ => ¬Domain.OwnExit exit

namespace Foreign

variable {α β : Type}

theorem value (value : α) : Foreign (pure value) := Contract.value fun _ h => h

theorem exit {exit : Exit} (h : ¬Domain.OwnExit exit) : Foreign (throw exit : BenchM α) :=
  Contract.exit fun _ _ => h

theorem modifying (change : Bench → Bench) : Foreign (modify change) :=
  Contract.modify fun _ h => h

theorem bind {first : BenchM α} {rest : α → BenchM β} (hfirst : Foreign first)
    (hrest : ∀ value, Foreign (rest value)) : Foreign (first >>= rest) :=
  Contract.bind hfirst hrest

theorem looking {rest : Bench → BenchM α} (h : ∀ b, Foreign (rest b)) :
    Foreign (get >>= rest) := by
  apply Contract.get_bind
  rintro b _ _ rfl
  exact h _ _ trivial

theorem polling {attempt : BenchM (Option α)} (h : Foreign attempt) (bound : Nat) :
    Foreign (poll attempt bound) :=
  Contract.poll h (fun _ _ => by decide) bound

theorem loading32 (address : UInt64) : Foreign (load32 address : BenchM UInt32) := by
  unfold load32
  split
  · exact looking fun b => (modifying _).bind fun _ => (modifying _).bind fun _ => value _
  · exact exit (by decide)

theorem loading64 (address : UInt64) : Foreign (load64 address : BenchM UInt64) := by
  unfold load64
  split
  · exact looking fun b => (modifying _).bind fun _ => (modifying _).bind fun _ => value _
  · exact exit (by decide)

theorem accessing (access : RegisterAccess) (address : UInt64) :
    Foreign (access.read address : BenchM UInt64) := by
  cases access with
  | whole => exact loading64 address
  | halves =>
      refine polling ?_ patience
      refine (loading32 _).bind fun high => (loading32 _).bind fun low => ?_
      exact (loading32 _).bind fun again => value _

theorem reading (device : TimerDevice) (hart : Nat) : Foreign (deviceTime device hart) := by
  cases device with
  | clock number => exact looking fun b => (modifying _).bind fun _ => value _
  | mtimer driver =>
      refine bind (looking fun b => value _) fun serving => ?_
      cases serving with
      | none => exact value 0
      | some number =>
          refine bind (looking fun b => ?_) fun device => accessing _ _
          cases b.mtimers[number]? with
          | none => exact exit (by decide)
          | some device => exact value device

theorem timing (hart : Nat) : Foreign (timerValue hart) := by
  refine looking fun b => ?_
  cases b.timer with
  | none => exact value 0
  | some device => exact reading device hart

theorem logging (entry : LogRecord) : Foreign (log entry) := by
  refine looking fun b => ?_
  cases b.logger with
  | traced limit =>
      dsimp only
      split
      · exact modifying _
      · exact value ()
  | console installed =>
      cases installed with
      | none => exact value ()
      | some limit =>
          dsimp only
          split
          · refine (timing _).bind fun ticks =>
              bind (looking fun b => value _) fun frequency => ?_
            refine bind ?_ fun stamp => modifying _
            unfold timestamp
            split
            · exact value _
            · dsimp only
              split
              · exact value _
              · exact exit (by decide)
          · exact value ()

end Foreign

/-!
# Tables on the bench
-/

theorem recordRegion_of_mem {b : Bench} {region : Region} (h : region ∈ b.domain.regions) :
    recordRegion region b = .ok () b := by
  unfold recordRegion
  rw [Interhart.get_bind, Domain.record_of_mem h]
  refine (bind_of_ok rfl).trans ?_
  exact (bind_of_ok rfl).trans (congrFun (if_neg (not_not.mpr h)) b)

theorem mem_of_recordRegion {b b' : Bench} {region : Region}
    (h : recordRegion region b = .ok () b') : region ∈ b'.domain.regions := by
  have hrecord : Contract (Protecting b [region] []) (recordRegion region) _ _ :=
    protecting_record (List.mem_singleton_self region)
  rcases hrecord.of_ok (.refl b _) h with ⟨domain, _, hdone, _, _, _, _, _, rfl⟩
  exact hdone (List.mem_singleton_self region)

theorem contract_recordRegion (region : Region) (b : Bench) :
    Contract (· = b) (recordRegion region) (fun _ _ => True)
      fun exit b' => Domain.OwnExit exit → b' = b := by
  apply Contract.get_bind_of_eq
  cases hrecord : b.domain.record region with
  | error error =>
      have hrefused : (orRefuse (b.domain.record region) : BenchM Domain) b =
          .error (.refused error) b := by
        rw [hrecord]
        rfl
      exact .bind_error hrefused fun _ => rfl
  | ok grown =>
      have hgrown : (orRefuse (b.domain.record region) : BenchM Domain) b = .ok grown b := by
        rw [hrecord]
        rfl
      refine .bind_ok hgrown (.bind_ok (t := { b with domain := grown }) rfl ?_)
      split
      · exact (Foreign.logging _).weaken (fun _ _ => trivial) (fun _ _ _ => trivial)
          fun _ _ hforeign hown => absurd hown hforeign
      · exact Contract.value fun _ _ => trivial

theorem settles_recordRegion :
    Settles (fun region (b : Bench) => region ∈ b.domain.regions) Domain.OwnExit
      recordRegion where
  done := mem_of_recordRegion
  idle := recordRegion_of_mem
  lasts region other := by
    apply keeps_recordRegion
    · refine fun entry => (Passive.logging entry).keeping ?_
      rintro _ _ ⟨_, _, _, _, _, rfl⟩ hmem
      exact hmem
    · exact fun b grown hrecord hmem => Domain.mem_of_mem_of_record hrecord hmem
  stops hstep hown := (contract_recordRegion _ _).of_error rfl hstep hown

def Consoleless (b : Bench) : Prop := ∀ limit, b.logger ≠ .console (some limit)

theorem logging_of_consoleless {own : Exit → Bench → Prop} (entry : LogRecord) :
    Contract Consoleless (log entry) (fun _ => Consoleless) own := by
  apply Contract.get_bind
  intro b hb
  cases hlogger : b.logger with
  | traced limit =>
      dsimp only
      split
      · exact Contract.modify fun s hs => by rw [hs]; exact hb
      · exact Contract.value fun s hs => by rw [hs]; exact hb
  | console installed =>
      cases installed with
      | none => exact Contract.value fun s hs => by rw [hs]; exact hb
      | some limit => exact absurd hlogger (hb limit)

theorem recording_of_consoleless (region : Region) :
    Contract Consoleless (recordRegion region) (fun _ => Consoleless)
      fun exit _ => Domain.OwnExit exit := by
  apply Contract.get_bind
  intro b hb
  have hrecord : Contract (· = b) (orRefuse (b.domain.record region)) (fun _ => Consoleless)
      fun exit _ => Domain.OwnExit exit := by
    refine Contract.orRefuse (fun _ _ s hs => hs ▸ hb) fun error hrecord _ _ => ?_
    rw [(Domain.full_of_record hrecord).1]
    decide
  refine hrecord.bind fun grown => ?_
  have hgrown : Contract Consoleless (modify fun b => { b with domain := grown })
      (fun _ => Consoleless) fun exit _ => Domain.OwnExit exit :=
    Contract.modify fun _ h => h
  refine hgrown.bind fun _ => ?_
  split
  · exact logging_of_consoleless _
  · exact Contract.value fun _ h => h

theorem protecting_of_consoleless (base size : UInt64) (largest : Nat) :
    Contract Consoleless (protectRange base size largest) (fun _ => Consoleless)
      fun exit _ => Domain.OwnExit exit := by
  unfold protectRange Domain.protectWith
  split
  · rw [Domain.recordPieces_eq]
    refine (Contract.forM fun region _ => recording_of_consoleless region).bind fun _ => ?_
    split
    · exact Contract.exit fun _ _ => by decide
    · exact Contract.value fun _ h => h
  · exact Contract.exit fun _ _ => by decide

/-- To protect a range again at once comes to the same, whatever the table: it succeeds, is
refused or breaks off as before, and no region is recorded.  With a log on the console this
holds unless it was the log that broke off. -/
theorem protect_again (base size : UInt64) (largest : Nat) :
    (∀ domain, Repeats (Domain.protect base.toNat size.toNat largest) domain ∧
      (Domain.isPowerOfTwo largest = true → ∀ exit,
        exit? (Domain.protect base.toNat size.toNat largest) domain = some exit →
          exit = .refused .tableFull ∨ exit = .fault .sumOverflow)) ∧
    (∀ b, Consoleless b → Repeats (protectRange base size largest) b) ∧
    ∀ b, (∀ exit, exit? (protectRange base size largest) b = some exit → Domain.OwnExit exit) →
      Repeats (protectRange base size largest) b := by
  refine ⟨fun domain => ⟨?_, fun hpower exit hexit => ?_⟩, fun b hb => ?_, fun b hown => ?_⟩
  · refine Domain.settles_recordStep.repeats_protectWith fun hrun => ?_
    exact ((Domain.contract_protect _ _ _).of_error trivial hrun).1
  · rcases (Domain.contract_protect _ _ _).of_error trivial (error_of_exit? hexit) with
      ⟨hfull | hoverflow | huneven, hpiece⟩
    · exact .inl hfull
    · exact .inr hoverflow
    · exact absurd huneven (hpiece hpower)
  · refine settles_recordRegion.repeats_protectWith fun hrun => ?_
    exact (protecting_of_consoleless base size largest).of_error hb hrun
  · refine settles_recordRegion.repeats_protectWith fun {exit t} hrun => hown exit ?_
    unfold exit? protectRange
    rw [hrun]

def crowdedDomain : Domain := ⟨(List.range 63).map fun n => ⟨8 * n, 3, .protectedMmio⟩⟩

def filledDomain : Domain := ⟨crowdedDomain.regions ++ [⟨0x1000, 12, .protectedMmio⟩]⟩

theorem protect_twoPages :
    Domain.protect 0x1000 0x2000 0x1000 =
      [⟨0x1000, 12, .protectedMmio⟩, ⟨0x2000, 12, .protectedMmio⟩].forM Domain.recordStep := by
  have hfirst : Domain.pieceSize 0x1000 0x3000 12 = 0x1000 := by decide
  have hlast : Domain.pieceSize (0x1000 + 0x1000) 0x3000 12 = 0x1000 := by decide
  unfold Domain.protect Domain.protectWith
  rw [if_pos (by decide)]
  change Domain.recordPieces _ 0x1000 0x3000 12 = _
  rw [Domain.recordPieces, if_pos (by decide)]
  dsimp only
  rw [hfirst, if_pos (by decide), Domain.recordPieces, if_pos (by decide)]
  dsimp only
  rw [hlast, if_pos (by decide), Domain.recordPieces, if_neg (by decide)]
  rfl

theorem protect_crowdedDomain :
    Domain.protect 0x1000 0x2000 0x1000 crowdedDomain =
      .error (.refused .tableFull) filledDomain := by
  rw [protect_twoPages]
  rfl

theorem protect_again_crowdedDomain :
    Domain.protect 0x1000 0x2000 0x1000 filledDomain =
        .error (.refused .tableFull) filledDomain ∧
      Repeats (protectRange 0x1000 0x2000 0x1000) { domain := crowdedDomain } := by
  rcases protect_again 0x1000 0x2000 0x1000 with ⟨hdomain, hbench, _⟩
  refine ⟨?_, hbench { domain := crowdedDomain } fun _ => nofun⟩
  have hagain : Repeats (Domain.protect 0x1000 0x2000 0x1000) crowdedDomain :=
    (hdomain crowdedDomain).1
  unfold Repeats finalState at hagain
  rw [protect_crowdedDomain] at hagain
  exact hagain

end Bench
end Interhart
