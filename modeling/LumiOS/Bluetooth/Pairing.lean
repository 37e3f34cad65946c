import Mathlib.Data.List.Nodup
import LumiOS.Support.CStr
import LumiOS.Support.Runs
import LumiOS.Support.Text

/-!
# Bluetooth — Pairing

The device table of bluetoothd and the six operations of `pairing.c`.

The state of a device is kept twice, as the enumeration and as the flags `paired` and `blocked`.
`connect_device` looks at `paired` before it moves the state, and `unpair_device` moves the state
together with the flag; `disconnect_device` does neither, and nothing looks at `blocked`.  So the two
agree after an operation exactly when it does not disconnect a device that is not paired, connect one
that is blocked, or block one that is connected (`pairing_sound_iff`).
-/

namespace LumiOS.Bluetooth

open Support

/-! ### bluetoothd_t -/

/-- `bt_state_t`. -/
inductive BtState where
  | disconnected | connecting | connected | paired | bonded
deriving DecidableEq, Repr

/-- `bt_device_t`. -/
structure BtDevice where
  address : CStr 18
  state : BtState
  paired : Bool
  trusted : Bool
  blocked : Bool
deriving DecidableEq, Repr

/-- `BT_MAX_DEVICES`. -/
def btMaxDevices : Nat := 64

/-- `devices`, up to `num_devices`. -/
structure Bluetoothd where
  devices : List BtDevice
  num_devices_le : devices.length ≤ btMaxDevices
deriving DecidableEq, Repr

namespace Bluetoothd

/-- A write through a pointer into the table. -/
def write (bt : Bluetoothd) (dev : Nat) (f : BtDevice → BtDevice) : Bluetoothd where
  devices := bt.devices.modify dev f
  num_devices_le := by
    rw [List.length_modify]
    exact bt.num_devices_le

/-- `find_device`: the first device whose address `strcmp` finds equal. -/
def findDevice (bt : Bluetoothd) (address : List UInt8) : Option (Fin bt.devices.length) :=
  bt.devices.findFinIdx? fun d => d.address.bytes = cstring address

end Bluetoothd

/-! ### pairing.c -/

section

variable (bt : Bluetoothd) (address : List UInt8)

def pairDevice : Int × Bluetoothd :=
  match bt.findDevice address with
  | none => (-1, bt)
  | some dev => (0, bt.write dev fun d => { d with state := .paired, paired := true })

def unpairDevice : Int × Bluetoothd :=
  match bt.findDevice address with
  | none => (-1, bt)
  | some dev =>
    (0, bt.write dev fun d => { d with state := .disconnected, paired := false, trusted := false })

def connectDevice : Int × Bluetoothd :=
  match bt.findDevice address with
  | none => (-1, bt)
  | some dev =>
    let (ret, bt) := if bt.devices[dev].paired = false then pairDevice bt address else (0, bt)
    if ret < 0 then (-1, bt)
    else
      let bt := bt.write dev fun d => { d with state := .connecting }
      (0, bt.write dev fun d => { d with state := .connected })

def disconnectDevice : Int × Bluetoothd :=
  match bt.findDevice address with
  | none => (-1, bt)
  | some dev => (0, bt.write dev fun d => { d with state := .paired })

def trustDevice (trust : Bool) : Int × Bluetoothd :=
  match bt.findDevice address with
  | none => (-1, bt)
  | some dev => (0, bt.write dev fun d => { d with trusted := trust })

def blockDevice (block : Bool) : Int × Bluetoothd :=
  match bt.findDevice address with
  | none => (-1, bt)
  | some dev => (0, bt.write dev fun d => { d with blocked := block })

end

/-! ### One device -/

/-- An operation of `pairing.c`. -/
inductive Op where
  | pair
  | unpair
  | connect
  | disconnect
  | trust (trust : Bool)
  | block (block : Bool)
deriving DecidableEq, Repr

namespace Op

def run (bt : Bluetoothd) (address : List UInt8) : Op → Int × Bluetoothd
  | .pair => pairDevice bt address
  | .unpair => unpairDevice bt address
  | .connect => connectDevice bt address
  | .disconnect => disconnectDevice bt address
  | .trust b => trustDevice bt address b
  | .block b => blockDevice bt address b

/-- What it makes of the device it finds. -/
def effect : Op → BtDevice → BtDevice
  | .pair, d => { d with state := .paired, paired := true }
  | .unpair, d => { d with state := .disconnected, paired := false, trusted := false }
  | .connect, d => { d with state := .connected, paired := true }
  | .disconnect, d => { d with state := .paired }
  | .trust b, d => { d with trusted := b }
  | .block b, d => { d with blocked := b }

/-- It does not disconnect an unpaired device, connect a blocked one or block a connected one. -/
def Allowed : Op → BtDevice → Prop
  | .connect, d => d.blocked = false
  | .disconnect, d => d.paired = true
  | .block true, d => d.state ≠ .connected
  | _, _ => True

end Op

/-- The flags agree with the state. -/
structure BtDevice.Sound (d : BtDevice) : Prop where
  unpaired : d.paired = false → d.state = .disconnected
  blocked : d.blocked = true → d.state ≠ .connected

section

variable {bt bt' : Bluetoothd} {address : List UInt8} {op : Op} {d : BtDevice}

@[simp] theorem Op.effect_address (op : Op) (d : BtDevice) :
    (op.effect d).address = d.address := by
  cases op <;> rfl

theorem Op.effect_sound_iff (h : d.Sound) : (op.effect d).Sound ↔ op.Allowed d := by
  constructor
  · intro hd
    cases op with
    | connect => simpa [Op.effect, Op.Allowed] using hd.blocked
    | disconnect => simpa [Op.effect, Op.Allowed] using hd.unpaired
    | block b =>
        cases b with
        | true => exact hd.blocked rfl
        | false => trivial
    | pair | unpair | trust => trivial
  · intro ha
    cases op with
    | pair => exact ⟨by simp [Op.effect], by simp [Op.effect]⟩
    | unpair => exact ⟨fun _ => rfl, by simp [Op.effect]⟩
    | connect =>
        refine ⟨by simp [Op.effect], fun hb => ?_⟩
        exact absurd (hb.symm.trans ha) Bool.noConfusion
    | disconnect =>
        refine ⟨fun hp => ?_, by simp [Op.effect]⟩
        exact absurd (hp.symm.trans ha) Bool.noConfusion
    | trust b => exact ⟨h.unpaired, h.blocked⟩
    | block b =>
        refine ⟨h.unpaired, fun hb => ?_⟩
        obtain rfl : b = true := hb
        exact ha

/-! ### The table -/

theorem Bluetoothd.findDevice_eq_some {i : Fin bt.devices.length}
    (h : bt.findDevice address = some i) : bt.devices[i].address.bytes = cstring address := by
  simpa using (List.findFinIdx?_eq_some_iff.mp h).1

theorem Bluetoothd.findDevice_eq_none :
    bt.findDevice address = none ↔ ∀ d ∈ bt.devices, d.address.bytes ≠ cstring address := by
  simp [Bluetoothd.findDevice, List.findFinIdx?_eq_none_iff]

theorem Bluetoothd.write_write (bt : Bluetoothd) (dev : Nat) (f g : BtDevice → BtDevice) :
    (bt.write dev f).write dev g = bt.write dev (g ∘ f) := by
  simp only [Bluetoothd.write, List.modify_modify_eq]

theorem Bluetoothd.write_congr {i : Nat} {f g : BtDevice → BtDevice}
    (h : bt.devices[i]?.map f = bt.devices[i]?.map g) : bt.write i f = bt.write i g := by
  have hl : bt.devices.modify i f = bt.devices.modify i g := by
    refine List.ext_getElem? fun j => ?_
    rw [List.getElem?_modify, List.getElem?_modify]
    by_cases hij : i = j
    · subst hij
      simpa using h
    · simp [hij]
  simp only [Bluetoothd.write, hl]

/-- **An operation is its effect on the device it finds.** -/
theorem Op.run_eq (bt : Bluetoothd) (address : List UInt8) (op : Op) :
    op.run bt address = match bt.findDevice address with
      | none => (-1, bt)
      | some dev => (0, bt.write dev op.effect) := by
  cases op with
  | connect =>
      simp only [Op.run, connectDevice]
      cases hf : bt.findDevice address with
      | none => rfl
      | some dev =>
          simp only [Bluetoothd.write_write]
          by_cases hp : bt.devices[dev].paired = false
          · rw [if_pos hp]
            simp only [pairDevice, hf, Bluetoothd.write_write]
            rfl
          · rw [if_neg hp]
            refine Prod.ext rfl (Bluetoothd.write_congr ?_)
            have hp : bt.devices[dev].paired = true := by simpa using hp
            simp [Op.effect, ← hp]
  | _ => rfl

/-- The addresses differ, and the flags of every device agree with its state. -/
structure Bluetoothd.Consistent (bt : Bluetoothd) : Prop where
  addresses : (bt.devices.map (·.address.bytes)).Nodup
  sound : ∀ d ∈ bt.devices, d.Sound

/-- The operation leaves a consistent table, no device of another address is changed, and nothing is
when it fails. -/
structure Op.Keeps (op : Op) (bt : Bluetoothd) (address : List UInt8) : Prop where
  consistent : (op.run bt address).2.Consistent
  length : (op.run bt address).2.devices.length = bt.devices.length
  others : ∀ (i : Nat) (h : i < bt.devices.length),
    bt.devices[i].address.bytes ≠ cstring address →
      (op.run bt address).2.devices[i]? = some bt.devices[i]
  failed : (op.run bt address).1 = -1 → (op.run bt address).2 = bt

/-- The device of this address, if there is one, allows the operation. -/
def Op.AllowedAt (op : Op) (bt : Bluetoothd) (address : List UInt8) : Prop :=
  ∀ d ∈ bt.devices, d.address.bytes = cstring address → op.Allowed d

/-- Two devices of one address are one. -/
theorem Bluetoothd.Consistent.eq_of_address (h : bt.Consistent) {d₁ d₂ : BtDevice}
    (h₁ : d₁ ∈ bt.devices) (h₂ : d₂ ∈ bt.devices) (ha : d₁.address.bytes = d₂.address.bytes) :
    d₁ = d₂ :=
  List.inj_on_of_nodup_map h.addresses h₁ h₂ ha

theorem Bluetoothd.write_addresses (bt : Bluetoothd) (dev : Nat) {f : BtDevice → BtDevice}
    (hf : ∀ d, (f d).address = d.address) :
    (bt.write dev f).devices.map (·.address.bytes) = bt.devices.map (·.address.bytes) := by
  refine List.ext_getElem? fun j => ?_
  rw [List.getElem?_map, List.getElem?_map, Bluetoothd.write, List.getElem?_modify]
  by_cases hj : dev = j
  · cases bt.devices[j]? <;> simp [hj, hf]
  · simp [hj]

/-- A write is sound when what it makes of its own device is. -/
theorem Bluetoothd.write_consistent_iff (h : bt.Consistent) (dev : Fin bt.devices.length)
    {f : BtDevice → BtDevice} (hf : ∀ d, (f d).address = d.address) :
    (bt.write dev f).Consistent ↔ (f bt.devices[dev]).Sound := by
  have hget : (bt.write dev f).devices[dev.val]? = some (f bt.devices[dev]) := by
    simp [Bluetoothd.write]
  constructor
  · intro hc
    exact hc.sound _ (List.mem_of_getElem? hget)
  · intro hs
    refine ⟨by rw [bt.write_addresses dev hf]; exact h.addresses, fun d hd => ?_⟩
    obtain ⟨j, hj⟩ := List.mem_iff_getElem?.mp hd
    by_cases hij : dev.val = j
    · subst hij
      obtain rfl : f bt.devices[dev] = d := Option.some.inj (hget.symm.trans hj)
      exact hs
    · rw [Bluetoothd.write, List.getElem?_modify_ne _ _ hij] at hj
      exact h.sound d (List.mem_of_getElem? hj)

theorem Op.keeps_iff (op : Op) (bt : Bluetoothd) (address : List UInt8) (h : bt.Consistent) :
    op.Keeps bt address ↔ op.AllowedAt bt address := by
  have hrun := op.run_eq bt address
  cases hf : bt.findDevice address with
  | none =>
      rw [hf] at hrun
      refine ⟨fun _ d hd ha => absurd ha (Bluetoothd.findDevice_eq_none.mp hf d hd), fun _ => ?_⟩
      refine ⟨?_, ?_, fun i hi _ => ?_, fun _ => ?_⟩ <;> simp [hrun, h]
  | some dev =>
      rw [hf] at hrun
      have hdev := Bluetoothd.findDevice_eq_some hf
      have hmem : bt.devices[dev] ∈ bt.devices := List.getElem_mem _
      have hwrite := Bluetoothd.write_consistent_iff h dev op.effect_address
      rw [Op.effect_sound_iff (h.sound _ hmem)] at hwrite
      constructor
      · intro hk d hd ha
        obtain rfl := h.eq_of_address hd hmem (ha.trans hdev.symm)
        exact hwrite.mp (by simpa [hrun] using hk.consistent)
      · intro ha
        refine ⟨?_, ?_, fun i hi hne => ?_, fun hret => ?_⟩
        · rw [hrun]
          exact hwrite.mpr (ha _ hmem hdev)
        · simp [hrun, Bluetoothd.write]
        · have hi' : dev.val ≠ i := by
            rintro rfl
            exact hne hdev
          simp [hrun, Bluetoothd.write, List.getElem?_modify_ne _ _ hi']
        · simp [hrun] at hret

/-- **An operation keeps the flags and the states in agreement exactly when the device it addresses
allows it.** -/
theorem pairing_sound_iff (op : Op) (bt : Bluetoothd) (address : List UInt8) (h : bt.Consistent) :
    op.Keeps bt address ↔ op.AllowedAt bt address :=
  op.keeps_iff bt address h

end

/-- A headset that a scan has found. -/
def headset : BtDevice where
  address := .cut CStr.pos_18 (ascii "00:1A:7D:DA:71:13")
  state := .disconnected
  paired := false
  trusted := false
  blocked := false

/-- A keyboard in use. -/
def keyboard : BtDevice where
  address := .cut CStr.pos_18 (ascii "F4:73:35:0C:11:9A")
  state := .connected
  paired := true
  trusted := true
  blocked := false

def found : Bluetoothd := ⟨[keyboard, headset], Nat.le_add_left 2 62⟩

theorem found_consistent : found.Consistent where
  addresses := by decide
  sound d hd := by
    rcases List.mem_pair.mp hd with rfl | rfl
    · exact ⟨fun hp => absurd hp Bool.noConfusion, fun hb => absurd hb Bool.noConfusion⟩
    · exact ⟨fun _ => rfl, fun hb => absurd hb Bool.noConfusion⟩

/-- Disconnecting the headset makes its state `PAIRED`, which it is not. -/
theorem disconnect_unpaired :
    found.Consistent ∧ ¬ Op.disconnect.Keeps found (ascii "00:1A:7D:DA:71:13") := by
  refine ⟨found_consistent, fun h => ?_⟩
  have hmem : { headset with state := .paired } ∈
      (Op.disconnect.run found (ascii "00:1A:7D:DA:71:13")).2.devices := by decide
  exact absurd ((h.consistent.sound _ hmem).unpaired rfl) BtState.noConfusion

/-- Disconnecting the keyboard leaves the headset as it is. -/
theorem pairing_sound_keyboard : Op.disconnect.Keeps found (ascii "F4:73:35:0C:11:9A") := by
  refine (pairing_sound_iff .disconnect found _ found_consistent).mpr fun d hd haddr => ?_
  rcases List.mem_pair.mp hd with rfl | rfl
  · exact rfl
  · exact absurd haddr (by decide)

/-! ### Runs -/

/-- An operation on an address that allows it. -/
def Step (bt : Bluetoothd) (call : Op × List UInt8) (bt' : Bluetoothd) : Prop :=
  call.1.AllowedAt bt call.2 ∧ (call.1.run bt call.2).2 = bt'

theorem consistent_step {bt bt' : Bluetoothd} {call : Op × List UInt8} (h : bt.Consistent)
    (hs : Step bt call bt') : bt'.Consistent := by
  obtain ⟨ha, rfl⟩ := hs
  exact (Op.keeps_iff call.1 bt call.2 h).mpr ha |>.consistent

/-- From the empty table of `scan_start`, or any other that is consistent. -/
theorem consistent_run {bt bt' : Bluetoothd} {calls : List (Op × List UInt8)} (h : bt.Consistent)
    (hr : Run Step bt calls bt') : bt'.Consistent :=
  hr.invariant (fun _ _ _ h hs => consistent_step h hs) h

end LumiOS.Bluetooth
