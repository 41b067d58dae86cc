import Interhart.Proofs.Ipi.Rounds

/-!
# How harts come and go

The history tells which harts are up.  A hart comes up by a call that answers so, and goes when
it is declared unavailable or when it parks, which it does to carry out a halt.
-/

namespace Interhart
namespace Ipi

variable {κ σ : Type}

/-- A hart has come up and has not become unavailable since. -/
def Online (hart : Nat) (recent : List Incident) : Prop :=
  Unmended (fun incident _ => incident = .broughtUp hart) (· = .madeUnavailable hart) recent

@[simp] theorem not_online_nil (hart : Nat) : ¬Online hart [] := not_unmended_nil

theorem online_cons_iff {hart : Nat} {incident : Incident} {recent : List Incident} :
    Online hart (incident :: recent) ↔
      incident = .broughtUp hart ∨ (incident ≠ .madeUnavailable hart ∧ Online hart recent) :=
  unmended_cons_iff

theorem online_cons_of_isPlain {incident : Incident} (h : incident.isPlain = true) (hart : Nat)
    (recent : List Incident) : Online hart (incident :: recent) ↔ Online hart recent := by
  rw [online_cons_iff]
  cases incident with
  | broughtUp other => cases h
  | madeUnavailable other => cases h
  | _ => simp

theorem broughtUp_mem_iff (env : Environment κ σ) (hart : Nat) (s : System κ σ) :
    ∃ recent, (finalState (tryBringUp env hart) s).history = recent ++ s.history ∧
      (∀ other, .broughtUp other ∈ recent ↔
        other = hart ∧ ∃ t, tryBringUp env hart s = .ok (.ok ()) t) ∧
      ∀ other, .madeUnavailable other ∉ recent := by
  unfold finalState
  cases hc : s.dispatcher.controller with
  | none =>
      rw [tryBringUp_of_unregistered hc]
      exact ⟨[], rfl, by simp, by simp⟩
  | some controller =>
      by_cases hlimit : hart < hartLimit
      · have hrun : tryBringUp env hart s = _ := tryBringUp_of_registered hc hlimit
        cases hrefusal : env.refusal controller hart s.outside with
        | some error =>
            have hrefused : tryBringUp env hart s = .ok (.error error) (s.resetting hart) := by
              rw [hrun, hrefusal]
              rfl
            rw [hrefused]
            exact ⟨[.reset hart], rfl, by simp, by simp⟩
        | none =>
            rw [hrefusal] at hrun
            cases hclear : env.clear controller hart (s.resetting hart).outside with
            | ok value outside =>
                have hcleared : clearInterrupt env controller hart (s.resetting hart) =
                    .ok () (((s.resetting hart).within outside).noting (.cleared hart)) :=
                  bind_of_ok (onOutside_of_ok hclear)
                have hup : tryBringUp env hart s = .ok (.ok ())
                    ((((s.resetting hart).within outside).noting
                      (.cleared hart)).bringingUp hart) :=
                  hrun.trans (bind_of_ok hcleared)
                rw [hup]
                exact ⟨[.broughtUp hart, .madeAvailable hart, .cleared hart, .reset hart], rfl,
                  by simp, by simp⟩
            | error exit outside =>
                have hbroken : clearInterrupt env controller hart (s.resetting hart) =
                    .error exit ((s.resetting hart).within outside) :=
                  bind_of_error (onOutside_of_error hclear)
                rw [hrun.trans (bind_of_error hbroken)]
                exact ⟨[.reset hart], rfl, by simp, by simp⟩
      · rw [tryBringUp_of_slotless hc hlimit]
        exact ⟨[], rfl, by simp, by simp⟩

theorem recorded_of_halt {env : Environment κ σ} {others : List Call → Run κ σ Unit}
    (hothers : MakesCalls env others) {hart : Nat} {s t : System κ σ}
    (hentered : Entered env hart s t) (hhalt : t.dispatcher.slots hart = some .halt) :
    Recorded (.madeUnavailable hart) s.history (finalState (process env others hart) s) := by
  have hinvariant := invariant_recorded env (.madeUnavailable hart) s.history
  have hnested (calls : List Call) (hcalls : ∀ call ∈ calls, True) :
      Keeps (Recorded (.madeUnavailable hart) s.history) (others calls) :=
    hothers.keeps hinvariant.upheld hcalls
  have hwithdrawn : Recorded (.madeUnavailable hart) s.history (t.withdrawing hart) := by
    cases hentered with
    | unregistered => exact ⟨[.madeUnavailable hart, .entered hart], rfl, List.mem_cons_self⟩
    | registered =>
        exact ⟨[.madeUnavailable hart, .cleared hart, .entered hart], rfl, List.mem_cons_self⟩
  have hrest : Keeps (Recorded (.madeUnavailable hart) s.history) (do
      consume hart .halt
      effect env others hart .halt
      note (.left hart)
      return .parked : Run κ σ Ending) := by
    refine (hinvariant.consume hart .halt).bind fun _ => ?_
    refine (hinvariant.upheld.effect hnested hart .halt).bind fun _ => ?_
    exact (hinvariant.note rfl).bind fun _ => .value _
  have hdrain : Contract (· = s) (drain env others hart)
      (fun _ => Recorded (.madeUnavailable hart) s.history)
      fun _ => Recorded (.madeUnavailable hart) s.history := by
    rintro _ rfl
    rw [drain_of_halt hentered hhalt]
    exact hrest _ hwithdrawn
  have hprocess : Contract (· = s) (process env others hart)
      (fun _ => Recorded (.madeUnavailable hart) s.history)
      fun _ => Recorded (.madeUnavailable hart) s.history := by
    refine hdrain.bind fun ending => ?_
    split
    · exact Contract.exit fun _ hs => hs
    · exact Contract.value fun _ hs => hs
  exact hprocess.finalState rfl

/-!
# Harts that are left to themselves
-/

def Call.Spares (hart : Nat) (call : Call) : Prop :=
  call ≠ .bringUp hart ∧ call ≠ .makeUnavailable hart

/-- What the history tells of a hart that is left to itself: it has become unavailable only
where it has parked, and has carried its halt out next. -/
structure Untouched (hart : Nat) (recent : List Incident) : Prop where
  down : .broughtUp hart ∉ recent
  parked : ∀ later earlier, recent = later ++ .madeUnavailable hart :: earlier →
    ∃ rest, later = rest ++ [.performed hart .halt]

namespace Untouched

variable {hart : Nat} {recent : List Incident}

theorem nil (hart : Nat) : Untouched hart [] := by
  refine ⟨List.not_mem_nil, fun later earlier hsplit => ?_⟩
  simp at hsplit

theorem cons (h : Untouched hart recent) (incident : Incident)
    (hup : incident ≠ .broughtUp hart) (hgone : incident ≠ .madeUnavailable hart) :
    Untouched hart (incident :: recent) := by
  constructor
  · rw [List.mem_cons, not_or]
    exact ⟨hup.symm, h.down⟩
  · intro later earlier hsplit
    cases later with
    | nil =>
        cases hsplit
        exact absurd rfl hgone
    | cons first later =>
        rcases List.cons.inj hsplit with ⟨rfl, hrecent⟩
        rcases h.parked later earlier hrecent with ⟨rest, rfl⟩
        exact ⟨incident :: rest, rfl⟩

theorem parking (h : Untouched hart recent) (other : Nat) :
    Untouched hart (.performed other .halt :: .madeUnavailable other :: recent) := by
  by_cases hother : other = hart
  · subst hother
    constructor
    · simpa using h.down
    · intro later earlier hsplit
      rcases later with _ | ⟨first, _ | ⟨second, later⟩⟩
      · cases hsplit
      · cases hsplit
        exact ⟨[], rfl⟩
      · rcases List.cons.inj hsplit with ⟨rfl, htail⟩
        rcases List.cons.inj htail with ⟨rfl, hrecent⟩
        rcases h.parked later earlier hrecent with ⟨rest, rfl⟩
        exact ⟨_ :: _ :: rest, rfl⟩
  · have hgone : Incident.madeUnavailable other ≠ .madeUnavailable hart := by simpa using hother
    exact (h.cons (.madeUnavailable other) nofun hgone).cons (.performed other .halt)
      nofun nofun

end Untouched

/-- The surroundings ask harts for calls of a permitted kind only, as long
as they keep something. -/
structure Asks (env : Environment κ σ) (permitted : Call → Prop) (kept : σ → Prop) : Prop where
  raise (controller : κ) (hart : Nat) : Contract kept (env.raise controller hart)
    (fun calls outside => kept outside ∧ ∀ call ∈ calls, permitted call) fun _ => kept
  clear (controller : κ) (hart : Nat) : Keeps kept (env.clear controller hart)
  perform (hart : Nat) (event : Event) : Contract kept (env.perform hart event)
    (fun calls outside => kept outside ∧ ∀ call ∈ calls, permitted call) fun _ => kept
  returned (answer : Except Error Unit) : Keeps kept (env.returned answer)
  log (record : LogRecord) : Keeps kept (env.log record)

structure Spared (kept : σ → Prop) (hart : Nat) (past : List Incident) (s : System κ σ) :
    Prop where
  outside : kept s.outside
  history : ∃ recent, s.history = recent ++ past ∧ Untouched hart recent

namespace Spared

variable {kept : σ → Prop} {hart : Nat} {past : List Incident} {s t : System κ σ}

theorem changing (h : Spared kept hart past s) (change : Dispatcher κ → Dispatcher κ) :
    Spared kept hart past (s.changing change) := ⟨h.outside, h.history⟩

theorem noting (h : Spared kept hart past s) (incident : Incident)
    (hup : incident ≠ .broughtUp hart) (hgone : incident ≠ .madeUnavailable hart) :
    Spared kept hart past (s.noting incident) := by
  rcases h.history with ⟨recent, hrecent, huntouched⟩
  exact ⟨h.outside, incident :: recent, congrArg (incident :: ·) hrecent,
    huntouched.cons incident hup hgone⟩

theorem parking (h : Spared kept hart past s) (other : Nat) : Spared kept hart past
    (((s.withdrawing other).consuming other .halt).noting (.performed other .halt)) := by
  rcases h.history with ⟨recent, hrecent, huntouched⟩
  refine ⟨h.outside, .performed other .halt :: .madeUnavailable other :: recent, ?_,
    huntouched.parking other⟩
  change _ :: _ :: s.history = _
  rw [hrecent]
  rfl

theorem keeps_onOutside {α : Type} {step : EStateM Exit σ α} (h : Keeps kept step) :
    Keeps (Spared kept hart past) (onOutside step : Run κ σ α) :=
  Ipi.keeps_onOutside (fun _ hs => hs.outside) (fun _ _ hs houtside => ⟨houtside, hs.history⟩) h

theorem contract_onOutside {α : Type} {step : EStateM Exit σ α} {fact : α → Prop}
    (h : Contract kept step (fun value outside => kept outside ∧ fact value) fun _ => kept) :
    Contract (Spared kept hart past) (onOutside step : Run κ σ α)
      (fun value s => Spared kept hart past s ∧ fact value) fun _ => Spared kept hart past :=
  Ipi.contract_onOutside (fun _ hs => hs.outside)
    (fun _ _ hs houtside => ⟨houtside, hs.history⟩) h

end Spared

namespace Asks

variable {env : Environment κ σ} {kept : σ → Prop} {hart : Nat}
  (h : Asks env (·.Spares hart) kept)

include h

theorem upheld (past : List Incident) :
    Upheld env (·.Spares hart) (Spared kept hart past) where
  entering other hs := hs.noting (.entered other) nofun nofun
  leaving other hs := hs.noting (.left other) nofun nofun
  storing origin other event hs :=
    (hs.changing _).noting (.stored origin other event) nofun nofun
  resetting other hs := (hs.changing _).noting (.reset other) nofun nofun
  consuming _ _ hs := hs.changing _
  admitting other _ hs := (hs.changing _).noting (.madeAvailable other) nofun nofun
  withdrawing other hspares hs := by
    refine (hs.changing _).noting (.madeUnavailable other) nofun fun heq => hspares.2 ?_
    cases heq
    rfl
  bringingUp {_ t _ other} hspares _ _ _ _ ht := by
    have hadmitted : Spared kept hart past (t.admitting other) :=
      (ht.changing _).noting (.madeAvailable other) nofun nofun
    refine hadmitted.noting (.broughtUp other) (fun heq => hspares.1 ?_) nofun
    cases heq
    rfl
  raise controller other :=
    (Spared.contract_onOutside (h.raise controller other)).weaken (fun _ hs => hs)
      (fun _ _ hs => ⟨hs.1.noting (.raised other) nofun nofun, hs.2⟩) fun _ _ hs => hs
  clear controller other :=
    Contract.weaken (Spared.keeps_onOutside (h.clear controller other)) (fun _ hs => hs)
      (fun _ _ hs => hs.noting (.cleared other) nofun nofun) fun _ _ hs => hs
  perform other event := by
    refine (Spared.contract_onOutside (h.perform other event)).weaken ?_ (fun _ _ hs => hs)
      fun _ _ hs => hs
    rintro _ ⟨s, hs, rfl⟩
    exact hs.noting (.performed other event) nofun nofun
  park other := by
    refine (Spared.contract_onOutside (h.perform other .halt)).weaken ?_ (fun _ _ hs => hs)
      fun _ _ hs => hs
    rintro _ ⟨s, hs, rfl⟩
    exact hs.parking other
  returned answer := Spared.keeps_onOutside (h.returned answer)
  log record := Spared.keeps_onOutside (h.log record)

/-- A call that spares a hart leaves it to itself, and so do the calls that
are nested in it. -/
theorem untouched {others : List Call → Run κ σ Unit} (hothers : MakesCalls env others)
    {made : Call} (hspares : made.Spares hart) {s : System κ σ} (hs : kept s.outside) :
    ∃ recent, (finalState (made.run env others) s).history = recent ++ s.history ∧
      Untouched hart recent := by
  have hupheld := h.upheld s.history
  have hstart : Spared kept hart s.history s := ⟨hs, [], rfl, .nil hart⟩
  have hrun := hupheld.run (fun _ hcalls => hothers.keeps hupheld hcalls) hspares
  exact (Contract.finalState hrun hstart).history

end Asks
end Ipi
end Interhart
