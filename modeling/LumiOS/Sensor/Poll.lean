import LumiOS.Sensor.Daemon

/-!
# Sensor — Poll

What polling relies on along the runs of sensord.

`sensor_poll` goes through the entries and reads by type, and the lookup by type finds the first entry
of the type.  An entry becomes active only through the same lookup, so an active entry is the first of
its type (`Sensord.Leading`); then the entry read and the entry whose slot is written are the entry
polled, and the events differ in type (`sensor_poll_correct`).

The two functions that write to an entry find it by the same lookup, so that what holds of the table is
kept by one lemma (`Sensord.Inv.update`); a read and a poll only write to the slots of the last events.
The loop of the poll is taken apart from its end: the entries polled behind an entry are polled in the
state that has the entry's event in its slot, and no later entry has this slot (`Polled.cons`).  A type
without a reader (`gravity`, `rotation`) would be polled in vain; no entry has one, because none is
detected.
-/

namespace LumiOS.Sensor

open Support

/-! ### Operations -/

/-- A call of one of the four functions. -/
inductive Op where
  | enable (type : SensorType) (rateHz : Int32) (opens : List UInt8 → Bool)
  | disable (type : SensorType) (opens : List UInt8 → Bool)
  | read (type : SensorType) (event : SensorEvent) (sample : Sample)
  | poll (events : Nat → SensorEvent) (max : Int) (samples : Nat → Sample)

/-- What a call does to the state. -/
def Op.run (s : Sensord) : Op → Sensord
  | .enable type rateHz opens => (sensorEnable s type rateHz opens).2
  | .disable type opens => (sensorDisable s type opens).2
  | .read type event sample => (sensorRead s type event sample).2.2
  | .poll events max samples => (sensorPoll s events max samples).2.2

/-- Operations in turn. -/
def exec (ops : List Op) (s : Sensord) : Sensord := ops.foldl Op.run s

/-- A type that `sensor_read` has a case for. -/
def SensorType.Physical (type : SensorType) : Prop := type ≠ .gravity ∧ type ≠ .rotation

namespace Sensord

/-- An active entry is the first of its type. -/
def Leading (s : Sensord) : Prop :=
  ∀ (i j : Nat) (si sj : SensorInfo), s.sensors[i]? = some si → s.sensors[j]? = some sj →
    si.active = true → sj.type = si.type → i ≤ j

/-- What holds of the table at every moment. -/
structure Inv (s : Sensord) : Prop where
  leading : s.Leading
  physical : ∀ si ∈ s.sensors, si.type.Physical

/-- There is such an entry, and it is active. -/
def isActive (s : Sensord) (i : Nat) : Bool := s.sensors[i]?.any (·.active)

/-- The active entries, in the order of the table. -/
def activeEntries (s : Sensord) : List Nat := (List.range s.sensors.length).filter s.isActive

/-- What entry `i` reads. -/
def eventOf (s : Sensord) (samples : Nat → Sample) (i : Nat) : Option SensorEvent :=
  s.sensors[i]?.bind fun si =>
    ((samples i).readData si.iioPath si.type).map fun data => ⟨si.type, (samples i).nowNs, data⟩

end Sensord

section

variable {s s' : Sensord} {type : SensorType} {opens : List UInt8 → Bool} {samples : Nat → Sample}
  {max : Int}

/-! ### The first entry of a type -/

/-- The lookup finds the first entry of a type. -/
theorem Sensord.findSensor_eq_some {i : Fin s.sensors.length} :
    s.findSensor type = some i ↔
      (s.sensors.get i).type = type ∧ ∀ (j : Nat) (si : SensorInfo), s.sensors[j]? = some si →
        si.type = type → i.val ≤ j := by
  simp only [Sensord.findSensor, List.findFinIdx?_eq_some_iff, decide_eq_true_eq, List.get_eq_getElem,
    Fin.getElem_fin]
  refine and_congr_right fun _ => ⟨fun h j si hj ht => ?_, fun h j hj ht => ?_⟩
  · obtain ⟨hlt, rfl⟩ := List.getElem?_eq_some_iff.mp hj
    by_contra hij
    exact h ⟨j, hlt⟩ (Fin.lt_def.mpr (Nat.lt_of_not_le hij)) ht
  · exact absurd (h j _ (List.getElem?_eq_getElem j.isLt) ht) (Nat.not_le.mpr hj)

/-- The lookup by the type of an active entry finds the entry. -/
theorem Sensord.Leading.findSensor (h : s.Leading) {i : Fin s.sensors.length}
    (ha : (s.sensors.get i).active = true) : s.findSensor (s.sensors.get i).type = some i :=
  Sensord.findSensor_eq_some.mpr
    ⟨rfl, fun j sj hj ht => h i j _ sj (List.getElem?_eq_getElem i.isLt) hj ha ht⟩

/-- Two active entries of a type are one. -/
theorem Sensord.Leading.unique (h : s.Leading) {i j : Nat} {si sj : SensorInfo}
    (hi : s.sensors[i]? = some si) (hj : s.sensors[j]? = some sj) (hai : si.active = true)
    (haj : sj.active = true) (ht : si.type = sj.type) : i = j :=
  Nat.le_antisymm (h i j si sj hi hj hai ht.symm) (h j i sj si hj hi haj ht)

/-! ### The table along a run -/

/-- What is written to a file is not in the table. -/
@[simp] theorem Sensord.writeFile_sensors (s : Sensord) (opens : List UInt8 → Bool)
    (path text : List UInt8) : (s.writeFile opens path text).sensors = s.sensors := by
  rw [Sensord.writeFile]
  split <;> rfl

/-- A write that keeps the type, and makes the entry active only where it is the first. -/
theorem Sensord.Inv.update (h : s.Inv) {i : Nat} {f : SensorInfo → SensorInfo}
    (hs : s'.sensors = s.sensors.modify i f) (hf : ∀ si, (f si).type = si.type)
    (hfirst : ∀ si, s.sensors[i]? = some si → (f si).active = true →
      ∀ (j : Nat) (sj : SensorInfo), s.sensors[j]? = some sj → sj.type = si.type → i ≤ j) :
    s'.Inv := by
  have hget : ∀ (j : Nat) (sj' : SensorInfo), s'.sensors[j]? = some sj' →
      ∃ sj, s.sensors[j]? = some sj ∧ sj' = if i = j then f sj else sj := by
    intro j sj' hj
    rw [hs, List.getElem?_modify] at hj
    obtain ⟨sj, hsj, rfl⟩ := Option.map_eq_some_iff.mp hj
    exact ⟨sj, hsj, rfl⟩
  have htype : ∀ (j : Nat) (sj' : SensorInfo), s'.sensors[j]? = some sj' →
      ∃ sj, s.sensors[j]? = some sj ∧ sj.type = sj'.type := by
    intro j sj' hj
    obtain ⟨sj, hsj, rfl⟩ := hget j sj' hj
    refine ⟨sj, hsj, ?_⟩
    split
    · exact (hf sj).symm
    · rfl
  constructor
  · intro a b sa sb ha hb hact ht
    obtain ⟨sb₀, hb₀, hbt⟩ := htype b sb hb
    obtain ⟨sa₀, ha₀, rfl⟩ := hget a sa ha
    by_cases hia : i = a
    · subst hia
      rw [if_pos rfl] at hact ht
      exact hfirst sa₀ ha₀ hact b sb₀ hb₀ (hbt.trans (ht.trans (hf sa₀)))
    · rw [if_neg hia] at hact ht
      exact h.leading a b sa₀ sb₀ ha₀ hb₀ hact (hbt.trans ht)
  · intro si hsi
    obtain ⟨j, hj⟩ := List.mem_iff_getElem?.mp hsi
    obtain ⟨sj, hsj, ht⟩ := htype j si hj
    exact ht ▸ h.physical sj (List.mem_of_getElem? hsj)

/-- The invariant is about the table only. -/
theorem Sensord.Inv.of_sensors (h : s.Inv) (hs : s'.sensors = s.sensors) : s'.Inv :=
  ⟨by rw [Sensord.Leading, hs]; exact h.leading, by rw [hs]; exact h.physical⟩

/-- To enable a type is to write to its first entry. -/
theorem sensorEnable_sensors {i : Fin s.sensors.length} (hf : s.findSensor type = some i)
    (rateHz : Int32) : (sensorEnable s type rateHz opens).2.sensors =
      s.sensors.modify i fun e => { e with active := true, rateHz := rateHz } := by
  simp only [sensorEnable, hf, Sensord.update, Sensord.writeFile_sensors]

/-- To disable a type is to write to its first entry. -/
theorem sensorDisable_sensors (opens : List UInt8 → Bool) {i : Fin s.sensors.length}
    (hf : s.findSensor type = some i) :
    (sensorDisable s type opens).2.sensors =
      s.sensors.modify i fun e => { e with active := false, rateHz := 0 } := by
  simp only [sensorDisable, hf, Sensord.update, Sensord.writeFile_sensors]

/-- The first entry of a type may become active. -/
theorem sensorEnable_inv (h : s.Inv) (rateHz : Int32) :
    (sensorEnable s type rateHz opens).2.Inv := by
  cases hf : s.findSensor type with
  | none =>
      rw [sensorEnable, hf]
      exact h
  | some i =>
      obtain ⟨ht, hfirst⟩ := Sensord.findSensor_eq_some.mp hf
      refine h.update (sensorEnable_sensors hf rateHz) (fun _ => rfl) fun si hsi _ j sj hj hjt => ?_
      obtain rfl := Option.some.inj ((List.getElem?_eq_getElem i.isLt).symm.trans hsi)
      exact hfirst j sj hj (hjt.trans ht)

/-- Any entry may become inactive. -/
theorem sensorDisable_inv (h : s.Inv) : (sensorDisable s type opens).2.Inv := by
  cases hf : s.findSensor type with
  | none =>
      rw [sensorDisable, hf]
      exact h
  | some i =>
      exact h.update (sensorDisable_sensors opens hf) (fun _ => rfl)
        fun _ _ ha => absurd ha Bool.noConfusion

/-- A read leaves the table as it is. -/
theorem sensorRead_sensors (event : SensorEvent) (sample : Sample) :
    (sensorRead s type event sample).2.2.sensors = s.sensors := by
  rw [sensorRead]
  cases hf : s.findSensor type with
  | none => rfl
  | some i =>
      simp only
      cases sample.readData s.sensors[i].iioPath type with
      | none => rfl
      | some data => simp only [Sensord.cache, hf]

/-- A poll leaves the table as it is. -/
theorem pollLoop_sensors : ∀ (n i count : Nat) (events : Nat → SensorEvent) (s : Sensord),
    (pollLoop max samples n i count events s).2.2.sensors = s.sensors
  | 0, _, _, _, _ => rfl
  | n + 1, i, count, events, s => by
      rw [pollLoop]
      split
      · split
        · rfl
        · split
          · rw [pollLoop_sensors n, sensorRead_sensors]
          · exact pollLoop_sensors n _ _ _ _
      · rfl

/-- **One call** keeps the invariant. -/
theorem Op.run_inv (op : Op) (h : s.Inv) : (op.run s).Inv := by
  cases op with
  | enable type rateHz opens => exact sensorEnable_inv h rateHz
  | disable type opens => exact sensorDisable_inv h
  | read type event sample => exact h.of_sensors (sensorRead_sensors event sample)
  | poll events max samples => exact h.of_sensors (pollLoop_sensors _ _ _ _ _)

/-! ### Enumeration -/

/-- What is detected can be read. -/
theorem detectType_physical (sysfs : Sysfs) (iioPath : CStr 128) :
    (detectType sysfs iioPath).Physical := by
  have hprobes : ∀ p ∈ probes, p.2.Physical := by
    simp [probes, SensorType.Physical]
  have hhints : ∀ p ∈ nameHints, p.2.Physical := by
    simp [nameHints, SensorType.Physical]
  have haccel : SensorType.Physical .accel := by simp [SensorType.Physical]
  rw [detectType]
  split
  · rename_i p hp
    exact hprobes p (List.mem_of_find?_eq_some hp)
  · split
    · exact haccel
    · split
      · rename_i p hp
        exact hhints p (List.mem_of_find?_eq_some hp)
      · exact haccel

/-- After the enumeration no entry is active. -/
theorem sensordInit_inv (sysfs : Sysfs) : (sensordInit sysfs).Inv := by
  have hmem : ∀ si ∈ (sensordInit sysfs).sensors, ∃ dName, si = sensorOf sysfs dName := by
    intro si hsi
    simp only [sensordInit, sensorEnumerate] at hsi
    split at hsi
    · cases hsi
    · obtain ⟨dName, _, rfl⟩ := List.mem_map.mp hsi
      exact ⟨dName, rfl⟩
  constructor
  · intro i j si sj hi _ ha _
    obtain ⟨dName, rfl⟩ := hmem si (List.mem_of_getElem? hi)
    cases ha
  · intro si hsi
    obtain ⟨dName, rfl⟩ := hmem si hsi
    exact detectType_physical sysfs _

/-- **A run** keeps the invariant. -/
theorem exec_inv (ops : List Op) (h : s.Inv) : (exec ops s).Inv := by
  induction ops generalizing s with
  | nil => exact h
  | cons op ops ih => exact ih (op.run_inv h)

/-! ### The poll loop -/

/-- A loop that has come to `r` from `s` with `count` events written has polled these entries. -/
structure Polled (s : Sensord) (samples : Nat → Sample) (polled : List Nat) (count : Nat)
    (events : Nat → SensorEvent) (r : Nat × (Nat → SensorEvent) × Sensord) : Prop where
  written : r.1 = count + polled.length
  event : ∀ (k : Nat) (hk : k < polled.length),
    s.eventOf samples polled[k] = some (r.2.1 (count + k))
  cached : ∀ (k : Nat) (hk : k < polled.length),
    r.2.2.lastEvents[polled[k]]? = some (r.2.1 (count + k))
  outside : ∀ k, k < count ∨ count + polled.length ≤ k → r.2.1 k = events k
  uncached : ∀ i, i ∉ polled → r.2.2.lastEvents[i]? = s.lastEvents[i]?

/-- Nothing is polled at the end of the table, or when `max` is reached. -/
theorem Polled.nil (s : Sensord) (samples : Nat → Sample) (count : Nat)
    (events : Nat → SensorEvent) : Polled s samples [] count events (count, events, s) where
  written := rfl
  event := fun _ hk => absurd hk (Nat.not_lt_zero _)
  cached := fun _ hk => absurd hk (Nat.not_lt_zero _)
  outside := fun _ _ => rfl
  uncached := fun _ _ => rfl

/-- An entry, and then the rest, in the state that has the entry's event. -/
theorem Polled.cons {i count : Nat} {polled : List Nat} {event : SensorEvent}
    {events : Nat → SensorEvent} {r : Nat × (Nat → SensorEvent) × Sensord}
    (hi : i < sensorMaxDevices) (hev : s.eventOf samples i = some event) (hni : i ∉ polled)
    (h : Polled { s with lastEvents := s.lastEvents.set i event hi } samples polled (count + 1)
      (Function.update events count event) r) : Polled s samples (i :: polled) count events r := by
  have hcount : r.2.1 count = event := by
    rw [h.outside count (.inl (Nat.lt_succ_self _)), Function.update_self]
  have hlast : r.2.2.lastEvents[i]? = some event := by
    rw [h.uncached i hni]
    simp [hi]
  refine ⟨?_, fun k hk => ?_, fun k hk => ?_, fun k hk => ?_, fun j hj => ?_⟩
  · rw [h.written, List.length_cons]
    omega
  · cases k with
    | zero => simpa [hcount] using hev
    | succ k =>
        have := h.event k (Nat.lt_of_succ_lt_succ hk)
        rw [show count + 1 + k = count + (k + 1) by omega] at this
        exact this
  · cases k with
    | zero => simpa [hcount] using hlast
    | succ k =>
        have := h.cached k (Nat.lt_of_succ_lt_succ hk)
        rw [show count + 1 + k = count + (k + 1) by omega] at this
        exact this
  · rw [List.length_cons] at hk
    rw [h.outside k (by omega), Function.update_of_ne (by omega)]
  · rw [List.mem_cons, not_or] at hj
    rw [h.uncached j hj.2]
    simp only [Vector.getElem?_set, if_neg (Ne.symm hj.1)]

/-- There is a reader for what can be read. -/
theorem readData_physical (sample : Sample) (iioPath : CStr 128) (h : type.Physical) :
    ∃ data, sample.readData iioPath type = some data := by
  cases type with
  | gravity => exact absurd rfl h.1
  | rotation => exact absurd rfl h.2
  | _ => exact ⟨_, rfl⟩

/-- A read by the type of an active entry reads the entry, and is cached with it. -/
theorem sensorRead_active (h : s.Inv) {i : Nat} {si : SensorInfo} (hi : s.sensors[i]? = some si)
    (ha : si.active = true) (event₀ : SensorEvent) :
    ∃ event, ∃ hlt : i < sensorMaxDevices, s.eventOf samples i = some event ∧
      sensorRead s si.type event₀ (samples i) =
        (0, event, { s with lastEvents := s.lastEvents.set i event hlt }) := by
  obtain ⟨hlt, rfl⟩ := List.getElem?_eq_some_iff.mp hi
  have hf : s.findSensor s.sensors[i].type = some ⟨i, hlt⟩ :=
    h.leading.findSensor (i := ⟨i, hlt⟩) ha
  obtain ⟨data, hdata⟩ :=
    readData_physical (samples i) s.sensors[i].iioPath (h.physical _ (List.getElem_mem hlt))
  refine ⟨⟨s.sensors[i].type, (samples i).nowNs, data⟩, Nat.lt_of_lt_of_le hlt s.num_sensors_le,
    ?_, ?_⟩
  · rw [Sensord.eventOf, hi, Option.bind_some, hdata, Option.map_some]
  · simp only [sensorRead, hf, Fin.getElem_fin, hdata, Sensord.cache]

/-- **The loop** polls the active entries that are left, as many as there is room for. -/
theorem pollLoop_spec (max : Int) (samples : Nat → Sample) (n i count : Nat)
    (events : Nat → SensorEvent) (h : s.Inv)
    (hn : i + n = s.sensors.length) :
    Polled s samples (((List.range' i n).filter s.isActive).take (max - count).toNat) count events
      (pollLoop max samples n i count events s) := by
  induction n generalizing i count events s with
  | zero => simpa [pollLoop] using Polled.nil s samples count events
  | succ n ih =>
      rw [pollLoop]
      split
      · rename_i hlt
        have hget := List.getElem?_eq_getElem (show i < s.sensors.length by omega)
        simp only [hget]
        by_cases ha : s.sensors[i].active = true
        · obtain ⟨event, hmax, hev, hread⟩ := sensorRead_active h hget ha (events count)
          have hact : s.isActive i = true := by simp [Sensord.isActive, hget, ha]
          rw [if_pos ha, hread, List.range'_succ, List.filter_cons_of_pos hact,
            show (max - count).toNat = (max - (count + 1 : Nat)).toNat + 1 by omega,
            List.take_succ_cons]
          refine Polled.cons hmax hev (fun hm => ?_) (ih _ _ _ (h.of_sensors rfl) ?_)
          · have := List.mem_range'.mp (List.mem_of_mem_filter (List.mem_of_mem_take hm))
            omega
          · show i + 1 + n = s.sensors.length
            omega
        · have hact : ¬ s.isActive i = true := by simp [Sensord.isActive, hget, ha]
          rw [if_neg ha, List.range'_succ, List.filter_cons_of_neg hact]
          exact ih _ _ _ h (by omega)
      · rename_i hlt
        rw [show (max - count).toNat = 0 by omega, List.take_zero]
        exact Polled.nil s samples count events

/-! ### Shutdown -/

/-- The loop of the shutdown leaves no active entry behind it. -/
theorem shutdownLoop_inactive (n i : Nat) (h : s.Inv) (hn : i + n = s.sensors.length)
    (hbefore : ∀ (j : Nat) (sj : SensorInfo), j < i → s.sensors[j]? = some sj → sj.active = false) :
    ∀ si ∈ (shutdownLoop opens n i s).sensors, si.active = false := by
  induction n generalizing i s with
  | zero =>
      intro si hsi
      obtain ⟨j, hj⟩ := List.mem_iff_getElem?.mp hsi
      obtain ⟨hlt, -⟩ := List.getElem?_eq_some_iff.mp hj
      exact hbefore j si (by rw [shutdownLoop] at hlt; omega) hj
  | succ n ih =>
      have hlt : i < s.sensors.length := by omega
      have hget := List.getElem?_eq_getElem hlt
      simp only [shutdownLoop, hget]
      by_cases ha : s.sensors[i].active = true
      · have hf : s.findSensor s.sensors[i].type = some ⟨i, hlt⟩ :=
          h.leading.findSensor (i := ⟨i, hlt⟩) ha
        have hs := sensorDisable_sensors opens hf
        rw [if_pos ha]
        refine ih (i + 1) (sensorDisable_inv h) (by rw [hs, List.length_modify]; omega) ?_
        intro j sj hj hsj
        rw [hs, List.getElem?_modify] at hsj
        obtain ⟨sj₀, hsj₀, rfl⟩ := Option.map_eq_some_iff.mp hsj
        by_cases hij : i = j
        · simp [hij]
        · rw [if_neg hij]
          exact hbefore j sj₀ (by omega) hsj₀
      · rw [if_neg ha]
        refine ih (i + 1) h (by omega) fun j sj hj hsj => ?_
        by_cases hij : i = j
        · subst hij
          obtain rfl := Option.some.inj (hget.symm.trans hsj)
          simpa using ha
        · exact hbefore j sj (by omega) hsj

/-! ### Polling is right -/

/-- What `sensor_poll` with `max ≥ 0` does in `s`. -/
structure PollCorrect (s : Sensord) (events : Nat → SensorEvent) (max : Int)
    (samples : Nat → Sample) : Prop where
  returns : ((sensorPoll s events max samples).1 : Int) = min max s.activeEntries.length
  /-- The entries polled are the first active ones, in the order of the table. -/
  polled : Polled s samples (s.activeEntries.take max.toNat) 0 events
    (sensorPoll s events max samples)
  increasing : s.activeEntries.Pairwise (· < ·)
  types : ∀ j k, j < k → k < (sensorPoll s events max samples).1 →
    ((sensorPoll s events max samples).2.1 j).type ≠
      ((sensorPoll s events max samples).2.1 k).type

/-- The entries are polled right and can be shut down. -/
structure Sensord.Correct (s : Sensord) : Prop where
  unique : ∀ (i j : Nat) (si sj : SensorInfo), s.sensors[i]? = some si → s.sensors[j]? = some sj →
    si.active = true → sj.active = true → si.type = sj.type → i = j
  lowest : s.Leading
  poll : ∀ events max samples, 0 ≤ max → PollCorrect s events max samples
  shutdown : ∀ opens, ∀ si ∈ (sensordShutdown s opens).sensors, si.active = false

/-- The active entries are in the order of the table. -/
theorem activeEntries_pairwise (s : Sensord) : s.activeEntries.Pairwise (· < ·) :=
  List.pairwise_lt_range.filter _

/-- Each of them is an entry that is active. -/
theorem isActive_of_mem {i : Nat} (h : i ∈ s.activeEntries) :
    ∃ si, s.sensors[i]? = some si ∧ si.active = true := by
  have hact := (List.mem_filter.mp h).2
  rwa [Sensord.isActive, Option.any_eq_true] at hact

/-- An event has the type of the entry it was read for. -/
theorem type_of_eventOf {i : Nat} {si : SensorInfo} {event : SensorEvent}
    (hi : s.sensors[i]? = some si) (h : s.eventOf samples i = some event) : event.type = si.type := by
  rw [Sensord.eventOf, hi, Option.bind_some] at h
  obtain ⟨data, -, rfl⟩ := Option.map_eq_some_iff.mp h
  rfl

/-- A poll is the loop over the whole table. -/
theorem sensorPoll_spec (max : Int) (samples : Nat → Sample) (h : s.Inv)
    (events : Nat → SensorEvent) :
    Polled s samples (s.activeEntries.take max.toNat) 0 events
      (sensorPoll s events max samples) := by
  have := pollLoop_spec max samples s.sensors.length 0 0 events h (Nat.zero_add _)
  rwa [← List.range_eq_range', Nat.cast_zero, Int.sub_zero] at this

/-- A poll is right where the invariant holds. -/
theorem pollCorrect (h : s.Inv) (events : Nat → SensorEvent) (hmax : 0 ≤ max) :
    PollCorrect s events max samples := by
  have hp := sensorPoll_spec max samples h events
  have hlen : (sensorPoll s events max samples).1 = min max.toNat s.activeEntries.length := by
    rw [hp.written, List.length_take, Nat.zero_add]
  refine ⟨by omega, hp, activeEntries_pairwise s, fun j k hjk hk => ?_⟩
  have hk' : k < (s.activeEntries.take max.toNat).length := by rwa [List.length_take, ← hlen]
  have hlt := (List.pairwise_iff_getElem.mp ((activeEntries_pairwise s).sublist
    (List.take_sublist _ _))) j k (hjk.trans hk') hk' hjk
  obtain ⟨sj, hsj, haj⟩ := isActive_of_mem (List.mem_of_mem_take (List.getElem_mem (hjk.trans hk')))
  obtain ⟨sk, hsk, hak⟩ := isActive_of_mem (List.mem_of_mem_take (List.getElem_mem hk'))
  have htj := type_of_eventOf hsj (hp.event j (hjk.trans hk'))
  have htk := type_of_eventOf hsk (hp.event k hk')
  rw [Nat.zero_add] at htj htk
  intro ht
  exact absurd (h.leading.unique hsj hsk haj hak (htj.symm.trans (ht.trans htk))) (Nat.ne_of_lt hlt)

end

/-- **Along every run of sensord, an active entry is the only active one of its type and the first,
polling reads the active entries and caches each in its own slot, and shutdown leaves none active.** -/
theorem sensor_poll_correct (sysfs : Sysfs) (ops : List Op) :
    (exec ops (sensordInit sysfs)).Correct := by
  have h := exec_inv ops (sensordInit_inv sysfs)
  refine ⟨fun i j si sj hi hj hai haj ht => h.leading.unique hi hj hai haj ht, h.leading,
    fun events max samples hmax => pollCorrect h events hmax, fun opens => ?_⟩
  exact shutdownLoop_inactive _ 0 (h.of_sensors rfl) (Nat.zero_add _)
    fun j sj hj => absurd hj (Nat.not_lt_zero j)

end LumiOS.Sensor
