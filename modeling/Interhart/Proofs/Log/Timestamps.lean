import Interhart.Machine.Bench
import Interhart.Proofs.Text.Words

/-!
# The time in front of a record

A record is printed with the time in seconds and thousandths, and the time can be read off the
line again.  The thousandths come from the ticks that are left over from whole seconds, scaled
in a word: where the word does not hold the product nothing is printed.  Every line that is
printed shows the exact time, rounded down, so time never goes back from one line to a later
one.
-/

namespace Interhart

/-!
# Seconds and milliseconds
-/

def elapsedMillis (ticks frequency : UInt64) : Nat :=
  if frequency = 0 then 0 else ticks.toNat * 1000 / frequency.toNat

/-- Whether the ticks that are left over from whole seconds can be scaled to
milliseconds in a word. -/
def Scales (ticks frequency : UInt64) : Prop :=
  frequency = 0 ∨ ticks.toNat % frequency.toNat * 1000 < UInt64.size

instance (ticks frequency : UInt64) : Decidable (Scales ticks frequency) :=
  inferInstanceAs (Decidable (_ ∨ _))

theorem toNat_pos_of_ne_zero {frequency : UInt64} (h : frequency ≠ 0) :
    0 < frequency.toNat := by
  apply Nat.pos_of_ne_zero
  intro hzero
  exact h (UInt64.toNat_inj.mp hzero)

theorem timestamp_of_not_scales {ticks frequency : UInt64} (h : ¬Scales ticks frequency) :
    timestamp ticks frequency = .error .productOverflow := by
  rcases not_or.mp h with ⟨hsome, hlarge⟩
  simp [timestamp, hsome, hlarge]

theorem millis_le {frequency : Nat} (hpos : 0 < frequency) (ticks : Nat) :
    ticks % frequency * 1000 / frequency ≤ 999 := by
  have hrest := Nat.mod_lt ticks hpos
  apply Nat.le_of_lt_succ
  rw [Nat.div_lt_iff_lt_mul hpos]
  omega

theorem seconds_add_millis {frequency : Nat} (hpos : 0 < frequency) (ticks : Nat) :
    ticks / frequency * 1000 + ticks % frequency * 1000 / frequency =
      ticks * 1000 / frequency := by
  have hticks : ticks * 1000 =
      ticks % frequency * 1000 + frequency * (ticks / frequency * 1000) := by
    rw [← Nat.mul_assoc, ← Nat.add_mul, Nat.mod_add_div]
  rw [hticks, Nat.add_mul_div_left _ _ hpos, Nat.add_comm]

theorem timestamp_of_scales {ticks frequency : UInt64} (h : Scales ticks frequency) :
    ∃ seconds millis, timestamp ticks frequency = .ok (seconds, millis) ∧ millis ≤ 999 ∧
      seconds * 1000 + millis = elapsedMillis ticks frequency := by
  by_cases hzero : frequency = 0
  · exact ⟨0, 0, by simp [timestamp, hzero], Nat.zero_le _, by simp [elapsedMillis, hzero]⟩
  · have hpos := toNat_pos_of_ne_zero hzero
    have hsmall := h.resolve_left hzero
    refine ⟨ticks.toNat / frequency.toNat,
      ticks.toNat % frequency.toNat * 1000 / frequency.toNat, ?_,
      millis_le hpos ticks.toNat, ?_⟩
    · simp only [timestamp, hzero, if_false, hsmall, if_true]
    · rw [elapsedMillis, if_neg hzero]
      exact seconds_add_millis hpos ticks.toNat

theorem elapsedMillis_le {ticks later : UInt64} (h : ticks ≤ later) (frequency : UInt64) :
    elapsedMillis ticks frequency ≤ elapsedMillis later frequency := by
  unfold elapsedMillis
  split
  · exact Nat.le_refl _
  · exact Nat.div_le_div_right (Nat.mul_le_mul_right _ (UInt64.le_iff_toNat_le.mp h))

/-- All ticks can be scaled exactly if those that are one less than a second can. -/
theorem forall_scales_iff {frequency : UInt64} :
    (∀ ticks, Scales ticks frequency) ↔ (frequency.toNat - 1) * 1000 < UInt64.size := by
  by_cases hzero : frequency = 0
  · simp [Scales, hzero, UInt64.size]
  · have hpos := toNat_pos_of_ne_zero hzero
    constructor
    · intro h
      have hone : (1 : UInt64) ≤ frequency := UInt64.le_iff_toNat_le.mpr hpos
      have hlast := (h (frequency - 1)).resolve_left hzero
      rw [UInt64.toNat_sub_of_le _ _ hone, UInt64.toNat_one,
        Nat.mod_eq_of_lt (Nat.sub_one_lt_of_lt hpos)] at hlast
      exact hlast
    · intro h ticks
      right
      have hrest := Nat.le_sub_one_of_lt (Nat.mod_lt ticks.toNat hpos)
      exact Nat.lt_of_le_of_lt (Nat.mul_le_mul_right 1000 hrest) h

/-!
# Reading the time off a line
-/

def fieldNumber (field : List Char) : Nat := Nat.ofDigitChars 10 (field.filter Char.isDigit) 0

/-- The seconds and milliseconds that a line shows in front of and behind the point, the latter
with three digits. -/
def shownTime? (line : String) : Option (Nat × Nat) :=
  let stamp := (line.toList.drop 1).takeWhile (· ≠ ']')
  let millis := (stamp.dropWhile (· ≠ '.')).drop 1
  if millis.length = 3 then some (fieldNumber (stamp.takeWhile (· ≠ '.')), fieldNumber millis)
  else none

theorem isDigit_of_mem_toDigits {n : Nat} {c : Char} (h : c ∈ Nat.toDigits 10 n) :
    c.isDigit = true :=
  Nat.isDigit_of_mem_toDigits (by decide) (by decide) h

theorem toList_padLeft_toString (fill : Char) (width n : Nat) :
    (padLeft fill width (toString n)).toList = (Nat.toDigits 10 n).leftpad width fill := by
  rw [padLeft, String.toList_ofList, Nat.toString_eq_ofList_toDigits, String.toList_ofList]

theorem fieldNumber_leftpad {fill : Char} (hfill : fill = ' ' ∨ fill = '0') (width n : Nat) :
    fieldNumber ((Nat.toDigits 10 n).leftpad width fill) = n := by
  have hdigits : (Nat.toDigits 10 n).filter Char.isDigit = Nat.toDigits 10 n :=
    List.filter_eq_self.mpr fun c hc => isDigit_of_mem_toDigits hc
  unfold fieldNumber
  rw [List.leftpad, List.filter_append, hdigits, List.filter_replicate]
  rcases hfill with rfl | rfl
  · exact Nat.ofDigitChars_ten_toDigits
  · rw [if_pos (by decide), Nat.ofDigitChars_append, Nat.ofDigitChars_replicate_zero,
      Nat.mul_zero, Nat.ofDigitChars_ten_toDigits]

theorem not_mem_leftpad {fill mark : Char} (hfill : mark ≠ fill) (hmark : mark.isDigit = false)
    (width n : Nat) : ¬mark ∈ (Nat.toDigits 10 n).leftpad width fill := by
  intro h
  rcases List.mem_append.mp h with hpad | hdigit
  · exact hfill (List.eq_of_mem_replicate hpad)
  · rw [isDigit_of_mem_toDigits hdigit] at hmark
    cases hmark

theorem length_leftpad_of_le {n : Nat} (h : n ≤ 999) :
    ((Nat.toDigits 10 n).leftpad 3 '0').length = 3 := by
  have hdigits : (Nat.toDigits 10 n).length ≤ 3 :=
    (Nat.length_toDigits_le_iff (by decide) (by decide)).mpr (Nat.lt_succ_of_le h)
  rw [List.length_leftpad]
  exact Nat.max_eq_left hdigits

theorem toList_line (record : LogRecord) (seconds millis hart : Nat) :
    ∃ rest, (record.line seconds millis hart).toList =
      '[' :: ((Nat.toDigits 10 seconds).leftpad 6 ' ' ++
        '.' :: (Nat.toDigits 10 millis).leftpad 3 '0') ++ ']' :: rest := by
  refine ⟨(" hart" ++ toString hart ++ " " ++ padRight 5 record.level.name ++ ": " ++
    record.message ++ "\n").toList, ?_⟩
  have hopening : "[".toList = ['['] := rfl
  have hpoint : ".".toList = ['.'] := rfl
  have hclosing : "] hart".toList = ']' :: " hart".toList := rfl
  simp only [LogRecord.line, String.toList_append, toList_padLeft_toString, hopening, hpoint,
    hclosing, List.append_assoc, List.cons_append, List.nil_append]

theorem shownTime?_line (record : LogRecord) (seconds hart : Nat) {millis : Nat}
    (h : millis ≤ 999) :
    shownTime? (record.line seconds millis hart) = some (seconds, millis) := by
  rcases toList_line record seconds millis hart with ⟨rest, hline⟩
  have hpoint : '.' ∉ (Nat.toDigits 10 seconds).leftpad 6 ' ' :=
    not_mem_leftpad (by decide) (by decide) 6 seconds
  have hbracket : ']' ∉ (Nat.toDigits 10 seconds).leftpad 6 ' ' ++
      '.' :: (Nat.toDigits 10 millis).leftpad 3 '0' := by
    rw [List.mem_append, List.mem_cons]
    rintro (hseconds | hdot | hmillis)
    · exact not_mem_leftpad (by decide) (by decide) 6 seconds hseconds
    · exact absurd hdot (by decide)
    · exact not_mem_leftpad (by decide) (by decide) 3 millis hmillis
  have hplaces := length_leftpad_of_le h
  unfold shownTime?
  rw [hline, List.cons_append, List.drop_one, List.tail_cons, takeWhile_ne_append hbracket]
  simp only [takeWhile_ne_append hpoint, dropWhile_ne_append hpoint, List.drop_one,
    List.tail_cons, hplaces, if_true]
  rw [fieldNumber_leftpad (Or.inl rfl), fieldNumber_leftpad (Or.inr rfl)]

/-!
# Records on the console
-/

def LogRecord.lineAt (record : LogRecord) (ticks frequency : UInt64) (hart : Nat) :
    Except Fault String :=
  (timestamp ticks frequency).map fun (seconds, millis) => record.line seconds millis hart

theorem lineAt_of_not_scales {ticks frequency : UInt64} (h : ¬Scales ticks frequency)
    (record : LogRecord) (hart : Nat) :
    record.lineAt ticks frequency hart = .error .productOverflow := by
  rw [LogRecord.lineAt, timestamp_of_not_scales h]
  rfl

theorem lineAt_of_scales {ticks frequency : UInt64} (h : Scales ticks frequency)
    (record : LogRecord) (hart : Nat) :
    ∃ line seconds millis, record.lineAt ticks frequency hart = .ok line ∧
      shownTime? line = some (seconds, millis) ∧ millis ≤ 999 ∧
      seconds * 1000 + millis = elapsedMillis ticks frequency := by
  rcases timestamp_of_scales h with ⟨seconds, millis, hstamp, hmillis, htotal⟩
  refine ⟨record.line seconds millis hart, seconds, millis, ?_,
    shownTime?_line record seconds hart hmillis, hmillis, htotal⟩
  rw [LogRecord.lineAt, hstamp]
  rfl

theorem time_of_lineAt {record : LogRecord} {ticks frequency : UInt64} {hart : Nat}
    {line : String} (hline : record.lineAt ticks frequency hart = .ok line)
    {seconds millis : Nat} (htime : shownTime? line = some (seconds, millis)) :
    millis ≤ 999 ∧ seconds * 1000 + millis = elapsedMillis ticks frequency := by
  by_cases hscales : Scales ticks frequency
  · rcases lineAt_of_scales hscales record hart with
      ⟨found, seconds', millis', hfound, htime', hmillis, htotal⟩
    rw [hline] at hfound
    cases hfound
    rw [htime] at htime'
    cases htime'
    exact ⟨hmillis, htotal⟩
  · rw [lineAt_of_not_scales hscales] at hline
    cases hline

namespace Bench

variable {b after : Bench} {limit : LogLimit} {record : LogRecord} {ticks frequency : UInt64}

theorem log_of_console (hlogger : b.logger = .console (some limit))
    (hadmits : limit.admits record.level = true)
    (hticks : timerValue callingHart b = .ok ticks after)
    (hfrequency : timerFrequency after = .ok frequency after) :
    log record b =
      match record.lineAt ticks frequency callingHart with
      | .ok line => .ok () { after with output := after.output ++ line }
      | .error fault => .error (.fault fault) after := by
  unfold log
  rw [Interhart.get_bind, hlogger]
  simp only [hadmits, if_true]
  rw [bind_of_ok hticks, bind_of_ok hfrequency, LogRecord.lineAt]
  cases timestamp ticks frequency with
  | ok stamp => rfl
  | error fault => rfl

end Bench

theorem shownTime?_le {ticks later frequency : UInt64} (hle : ticks ≤ later)
    {record other : LogRecord} {hart hart' seconds millis seconds' millis' : Nat}
    {line line' : String} (hline : record.lineAt ticks frequency hart = .ok line)
    (hline' : other.lineAt later frequency hart' = .ok line')
    (htime : shownTime? line = some (seconds, millis))
    (htime' : shownTime? line' = some (seconds', millis')) :
    seconds < seconds' ∨ seconds = seconds' ∧ millis ≤ millis' := by
  rcases time_of_lineAt hline htime with ⟨-, htotal⟩
  rcases time_of_lineAt hline' htime' with ⟨hmillis', htotal'⟩
  have hmono := elapsedMillis_le hle frequency
  omega

/-- A record is printed exactly where the ticks left over from whole seconds can be scaled in a
word, and then its line shows the time in whole milliseconds, rounded down.  At a frequency all
ticks can be printed exactly if a word holds the milliseconds of a second less a tick, scaled.
No line shows an earlier time than one of earlier ticks. -/
theorem time_shown_exactly (record : LogRecord) (frequency : UInt64) (hart : Nat) :
    (∀ (b after : Bench) (limit : LogLimit) (ticks : UInt64),
      b.logger = .console (some limit) → limit.admits record.level = true →
      Bench.timerValue callingHart b = .ok ticks after →
      Bench.timerFrequency after = .ok frequency after →
      Bench.log record b =
        match record.lineAt ticks frequency callingHart with
        | .ok line => .ok () { after with output := after.output ++ line }
        | .error fault => .error (.fault fault) after) ∧
    (∀ ticks,
      if Scales ticks frequency then
        ∃ line seconds millis, record.lineAt ticks frequency hart = .ok line ∧
          shownTime? line = some (seconds, millis) ∧ millis ≤ 999 ∧
          seconds * 1000 + millis = elapsedMillis ticks frequency
      else record.lineAt ticks frequency hart = .error .productOverflow) ∧
    ((∀ ticks, Scales ticks frequency) ↔ (frequency.toNat - 1) * 1000 < UInt64.size) ∧
    ∀ (ticks later : UInt64) (other : LogRecord) (hart' : Nat) (line line' : String)
      (seconds millis seconds' millis' : Nat), ticks ≤ later →
      record.lineAt ticks frequency hart = .ok line →
      other.lineAt later frequency hart' = .ok line' →
      shownTime? line = some (seconds, millis) → shownTime? line' = some (seconds', millis') →
      seconds < seconds' ∨ seconds = seconds' ∧ millis ≤ millis' := by
  refine ⟨?_, ?_, forall_scales_iff, ?_⟩
  · intro b after limit ticks hlogger hadmits hticks hfrequency
    exact Bench.log_of_console hlogger hadmits hticks hfrequency
  · intro ticks
    split
    · rename_i hscales
      exact lineAt_of_scales hscales record hart
    · rename_i hlarge
      exact lineAt_of_not_scales hlarge record hart
  · intro ticks later other hart' line line' seconds millis seconds' millis' hle hline
      hline' htime htime'
    exact shownTime?_le hle hline hline' htime htime'

def consoleBench (clock : Clock) : Bench :=
  { clocks := [clock], timer := some (.clock 0), logger := .console (some (some .info)) }

theorem time_shown_exactly_consoleBench :
    Bench.log ⟨.info, "up"⟩ (consoleBench ⟨10000000, 25000000, 1, 0⟩) =
      .ok () { consoleBench ⟨10000000, 25000001, 1, 1⟩ with
        output := "[     2.500] hart0 INFO : up\n" } ∧
      shownTime? "[     2.500] hart0 INFO : up\n" = some (2, 500) ∧
      ∀ seconds millis, shownTime? "[     2.501] hart3 WARN : late\n" = some (seconds, millis) →
        2 < seconds ∨ 2 = seconds ∧ 500 ≤ millis := by
  rcases time_shown_exactly ⟨.info, "up"⟩ 10000000 0 with ⟨hconsole, hshown, -, hlater⟩
  have hline : LogRecord.lineAt ⟨.info, "up"⟩ 25000000 10000000 0 =
      .ok "[     2.500] hart0 INFO : up\n" := rfl
  have hline' : LogRecord.lineAt ⟨.warn, "late"⟩ 25010000 10000000 3 =
      .ok "[     2.501] hart3 WARN : late\n" := rfl
  have htime : shownTime? "[     2.500] hart0 INFO : up\n" = some (2, 500) := by
    have hscales := hshown 25000000
    rw [if_pos (by decide)] at hscales
    rcases hscales with ⟨line, seconds, millis, hok, htime, hmillis, htotal⟩
    obtain rfl : line = "[     2.500] hart0 INFO : up\n" :=
      Except.ok.inj (hok.symm.trans hline)
    rw [htime]
    have helapsed : elapsedMillis 25000000 10000000 = 2500 := by decide
    rw [helapsed] at htotal
    have hseconds : seconds = 2 := by omega
    have hrest : millis = 500 := by omega
    rw [hseconds, hrest]
  refine ⟨?_, htime, ?_⟩
  · have hlog := hconsole (consoleBench ⟨10000000, 25000000, 1, 0⟩)
      (consoleBench ⟨10000000, 25000001, 1, 1⟩) (some .info) 25000000 rfl rfl rfl rfl
    rw [hlog, show callingHart = 0 from rfl, hline]
    rfl
  · intro seconds millis htime'
    exact hlater 25000000 25010000 ⟨.warn, "late"⟩ 3 _ _ 2 500 seconds millis (by decide) hline
      hline' htime htime'

/-- Half a second on a clock that counts `2 ^ 63` times a second is not printed. -/
theorem half_second_not_printed :
    elapsedMillis 0x4000000000000000 0x8000000000000000 = 500 ∧
      LogRecord.lineAt ⟨.info, "up"⟩ 0x4000000000000000 0x8000000000000000 0 =
        .error .productOverflow ∧
      Bench.log ⟨.info, "up"⟩ (consoleBench ⟨0x8000000000000000, 0x4000000000000000, 1, 0⟩) =
        .error (.fault .productOverflow)
          (consoleBench ⟨0x8000000000000000, 0x4000000000000001, 1, 1⟩) := by
  have hline : LogRecord.lineAt ⟨.info, "up"⟩ 0x4000000000000000 0x8000000000000000
      callingHart = .error .productOverflow := lineAt_of_not_scales (by decide) _ callingHart
  have hticks : Bench.timerValue callingHart
      (consoleBench ⟨0x8000000000000000, 0x4000000000000000, 1, 0⟩) =
        .ok 0x4000000000000000
          (consoleBench ⟨0x8000000000000000, 0x4000000000000001, 1, 1⟩) := rfl
  have hfrequency : Bench.timerFrequency
      (consoleBench ⟨0x8000000000000000, 0x4000000000000001, 1, 1⟩) =
        .ok 0x8000000000000000
          (consoleBench ⟨0x8000000000000000, 0x4000000000000001, 1, 1⟩) := rfl
  refine ⟨by decide, hline, ?_⟩
  rw [Bench.log_of_console rfl rfl hticks hfrequency, hline]

end Interhart
