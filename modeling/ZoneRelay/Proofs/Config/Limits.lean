import ZoneRelay.Config.Check

/-!
# What a checked configuration keeps to

A configuration is usable if no problem is found in it. Which limits it keeps then is said here once
and without the check, with the two upper limits on times left open
(`ZoneRelay.Config.Keeps`), and section by section the check is compared with it.

**The upper limits on times are looser than they are reported.** A time is cut to whole seconds
before it is compared, so that up to 999 milliseconds above the limit go unnoticed.

| limit | reported as | kept by a checked configuration |
|---|---|---|
| on the shutdown timeout | 60 s | 60 999 ms |
| on the flush interval | 1 s | 1 999 ms |
| any other | as it is | as it is |

So a configuration has no problem exactly if it keeps the limits with these two in their places
(`ZoneRelay.Config.usable_iff_keeps`), and there is one that keeps them and not those reported
(`ZoneRelay.Config.part_second_unnoticed`).
-/

namespace ZoneRelay

namespace Config

/-- **A configuration keeps its limits**: the upper ones on the shutdown timeout and on the flush
interval are given, in milliseconds. -/
structure Keeps (shutdown flush : Nat) (config : Config) : Prop where
  bindAddress : (Address.ofText? config.server.bindAddress).isSome
  receiveBuffer : 4096 ≤ config.server.receiveBuffer
  shutdownTimeout : config.server.shutdownTimeout ≤ shutdown
  maxSessions : 1 ≤ config.server.maxSessions
  resourcePath : config.codec.resourcePath ≠ ""
  idleTimeout : 1000 ≤ config.session.idleTimeout
  sweepInterval : 100 ≤ config.session.sweepInterval ∧
    config.session.sweepInterval ≤ config.session.idleTimeout
  adjustment : ∀ adjustment ∈ config.session.adjustment, adjustment.index < 20
  flushInterval : 1 ≤ config.outbound.flushInterval ∧ config.outbound.flushInterval ≤ flush
  maxSubPackets : 1 ≤ config.outbound.maxSubPackets ∧ config.outbound.maxSubPackets ≤ 10
  backlogLimit : 1 ≤ config.outbound.backlogLimit
  capacity : 1 ≤ config.bus.capacity
  appName : 1 ≤ config.logging.appName.utf8ByteSize ∧ config.logging.appName.utf8ByteSize ≤ 64

/-- Looser limits are kept as well. -/
theorem Keeps.mono {shutdown shutdown' flush flush' : Nat} {config : Config}
    (h : Keeps shutdown flush config) (hshutdown : shutdown ≤ shutdown') (hflush : flush ≤ flush') :
    Keeps shutdown' flush' config :=
  { h with
    shutdownTimeout := Nat.le_trans h.shutdownTimeout hshutdown
    flushInterval := ⟨h.flushInterval.1, Nat.le_trans h.flushInterval.2 hflush⟩ }

/-! ### Single checks -/

@[simp] theorem report_eq_nil_iff {condition : Bool} {problem : Problem} :
    report condition problem = [] ↔ condition = false := by
  cases condition with
  | true => exact ⟨nofun, nofun⟩
  | false => exact ⟨fun _ => rfl, fun _ => rfl⟩

/-- **A limit in whole seconds** is exceeded by a time that reaches the next second. -/
theorem lt_seconds_iff {limit milliseconds : Nat} :
    limit < seconds milliseconds ↔ limit * 1000 + 999 < milliseconds := by
  rw [seconds]
  omega

/-- **A check that another one masks**, being made only if that one finds nothing: the two find
nothing exactly if neither would on its own. -/
theorem ite_report_eq_nil_iff {masking : Prop} [Decidable masking] {condition : Bool}
    {problem other : Problem} :
    (if masking then [problem] else report condition other) = [] ↔
      ¬ masking ∧ condition = false := by
  by_cases hmasking : masking
  · rw [if_pos hmasking]
    exact ⟨nofun, fun h => absurd hmasking h.1⟩
  · rw [if_neg hmasking, report_eq_nil_iff]
    exact (and_iff_right hmasking).symm

/-! ### Sections -/

/-- An empty text is no address, so the check for one adds nothing but its own message. -/
theorem addressProblems_eq_nil_iff {address : String} :
    addressProblems address = [] ↔ (Address.ofText? address).isSome := by
  rw [addressProblems, ite_report_eq_nil_iff, Option.isNone_eq_false_iff, String.isEmpty_iff]
  refine and_iff_right_of_imp fun hsome hempty => ?_
  rw [hempty] at hsome
  cases hsome

theorem Server.problems_eq_nil_iff {server : Server} :
    server.problems = [] ↔ (Address.ofText? server.bindAddress).isSome ∧
      4096 ≤ server.receiveBuffer ∧ server.shutdownTimeout ≤ 60999 ∧ 1 ≤ server.maxSessions := by
  simp only [problems, List.append_eq_nil_iff, addressProblems_eq_nil_iff, report_eq_nil_iff,
    decide_eq_false_iff_not, lt_seconds_iff, beq_eq_false_iff_ne, and_assoc]
  exact and_congr_right fun _ => by omega

theorem Codec.problems_eq_nil_iff {codec : Codec} :
    codec.problems = [] ↔ codec.resourcePath ≠ "" := by
  rw [problems, report_eq_nil_iff, ← Bool.not_eq_true, String.isEmpty_iff]

theorem Lifetime.problems_eq_nil_iff {session : Lifetime} :
    session.problems = [] ↔ 1000 ≤ session.idleTimeout ∧
      (100 ≤ session.sweepInterval ∧ session.sweepInterval ≤ session.idleTimeout) ∧
      ∀ adjustment ∈ session.adjustment, adjustment.index < 20 := by
  have hadjustment : (session.adjustment.map Adjustment.problems).getD [] = [] ↔
      ∀ adjustment ∈ session.adjustment, adjustment.index < 20 := by
    rcases session.adjustment with _ | adjustment
    · simp
    · simp [Adjustment.problems]
  simp only [problems, List.append_eq_nil_iff, report_eq_nil_iff, ite_report_eq_nil_iff,
    decide_eq_false_iff_not, Nat.not_lt, hadjustment, and_assoc]

theorem Outbound.problems_eq_nil_iff {outbound : Outbound} :
    outbound.problems = [] ↔ (1 ≤ outbound.flushInterval ∧ outbound.flushInterval ≤ 1999) ∧
      (1 ≤ outbound.maxSubPackets ∧ outbound.maxSubPackets ≤ 10) ∧ 1 ≤ outbound.backlogLimit := by
  simp only [problems, List.append_eq_nil_iff, report_eq_nil_iff, ite_report_eq_nil_iff,
    decide_eq_false_iff_not, lt_seconds_iff, Bool.or_eq_false_iff, beq_eq_false_iff_ne]
  omega

theorem Bus.problems_eq_nil_iff {bus : Bus} : bus.problems = [] ↔ 1 ≤ bus.capacity := by
  rw [problems, report_eq_nil_iff, beq_eq_false_iff_ne]
  exact Nat.one_le_iff_ne_zero.symm

theorem Logging.problems_eq_nil_iff {logging : Logging} :
    logging.problems = [] ↔
      1 ≤ logging.appName.utf8ByteSize ∧ logging.appName.utf8ByteSize ≤ 64 := by
  rw [problems, ite_report_eq_nil_iff, decide_eq_false_iff_not, Nat.not_lt, String.isEmpty_iff,
    ← String.utf8ByteSize_eq_zero_iff, ← ne_eq, ← Nat.one_le_iff_ne_zero]

/-! ### The whole configuration -/

/-- **A configuration has no problem exactly if it keeps its limits**, with 999 milliseconds more
for the two upper ones on times. -/
theorem problems_eq_nil_iff_keeps (config : Config) :
    config.problems = [] ↔ config.Keeps 60999 1999 := by
  simp only [problems, List.append_eq_nil_iff, Server.problems_eq_nil_iff,
    Codec.problems_eq_nil_iff, Lifetime.problems_eq_nil_iff, Outbound.problems_eq_nil_iff,
    Bus.problems_eq_nil_iff, Logging.problems_eq_nil_iff]
  constructor
  · rintro ⟨⟨⟨⟨⟨⟨haddress, hbuffer, hshutdown, hsessions⟩, hpath⟩, hidle, hsweep, hadjustment⟩,
      hflush, hpackets, hbacklog⟩, hcapacity⟩, hname⟩
    exact ⟨haddress, hbuffer, hshutdown, hsessions, hpath, hidle, hsweep, hadjustment, hflush,
      hpackets, hbacklog, hcapacity, hname⟩
  · rintro ⟨haddress, hbuffer, hshutdown, hsessions, hpath, hidle, hsweep, hadjustment, hflush,
      hpackets, hbacklog, hcapacity, hname⟩
    exact ⟨⟨⟨⟨⟨⟨haddress, hbuffer, hshutdown, hsessions⟩, hpath⟩, hidle, hsweep, hadjustment⟩,
      hflush, hpackets, hbacklog⟩, hcapacity⟩, hname⟩

/-- A configuration is accepted if it has no problem, and only then. -/
theorem check_eq_ok_iff (config : Config) : config.check = .ok () ↔ config.problems = [] := by
  rw [check]
  rcases config.problems with _ | ⟨problem, rest⟩
  · exact ⟨fun _ => rfl, fun _ => rfl⟩
  · exact ⟨nofun, nofun⟩

/-- **What a usable configuration keeps to**: the reported limits, less whatever is cut off from
the two upper limits on times. So all that keep the reported limits are usable, and some others. -/
theorem usable_iff_keeps (config : Config) :
    (config.problems = [] ↔ config.Keeps 60999 1999) ∧
      (config.check = .ok () ↔ config.Keeps 60999 1999) ∧
      (config.Keeps 60000 1000 → config.problems = []) := by
  have hkeeps := problems_eq_nil_iff_keeps config
  exact ⟨hkeeps, (check_eq_ok_iff config).trans hkeeps,
    fun h => hkeeps.mpr (h.mono (by decide) (by decide))⟩

/-- **Half a second above the limit goes unnoticed**: a configuration with such a shutdown timeout
and such a flush interval has no problem, though it keeps neither of the two reported limits. -/
theorem part_second_unnoticed :
    let config : Config := { Config.standard with
      server := { Config.standard.server with shutdownTimeout := 60500 }
      outbound := { Config.standard.outbound with flushInterval := 1500 } }
    config.problems = [] ∧ config.check = .ok () ∧ ¬ config.Keeps 60000 1000 ∧
      ¬ config.Keeps 60999 1000 ∧ ¬ config.Keeps 60000 1999 := by
  intro config
  have hproblems : config.problems = [] := by decide +kernel
  refine ⟨hproblems, (check_eq_ok_iff _).mpr hproblems, fun h => ?_, fun h => ?_, fun h => ?_⟩
  · exact absurd h.shutdownTimeout (by decide)
  · exact absurd h.flushInterval.2 (by decide)
  · exact absurd h.shutdownTimeout (by decide)

end Config

end ZoneRelay
