import LumiOS.Support.Numerals
import Mathlib.Algebra.BigOperators.Group.List.Basic

/-!
# Netd — Monitor

`monitor.c`: the table of network interfaces, which `netd_run` makes anew every five seconds from
`/sys/class/net`, and the traffic that is added up over it.

The files are read into arrays of 18 and 32 bytes, under paths put together in one of 256.  All are large
enough but the one for the address, which keeps 17 characters: enough for Ethernet, and not for the 59 of
InfiniBand.  Whatever the table held before, it is what the last directory that opened shows of its first
sixteen entries, with the kernel's counters to the last byte, and the traffic is their sum modulo 2⁶⁴
(`monitor_reports`).
-/

namespace LumiOS.Netd

open Support

/-! ### netd.h -/

/-- `net_state_t`. -/
inductive NetState where
  | down | connecting | connected | disconnecting | failed
deriving DecidableEq, Repr

/-- `iface_type_t`. -/
inductive IfaceType where
  | wifi | ethernet | cellular | vpn | loopback
deriving DecidableEq, Repr

/-- `net_iface_t`. -/
structure NetIface where
  name : CStr 32
  type : IfaceType
  state : NetState
  ip4 : CStr 16
  ip6 : CStr 48
  gateway : CStr 16
  dns : CStr 16 × CStr 16
  mac : CStr 18
  signal : Int32
  ssid : CStr 64
  rxBytes : UInt64
  txBytes : UInt64
  isDefault : Bool
deriving DecidableEq, Repr

/-- After `memset`. -/
def NetIface.zero : NetIface where
  name := .cut CStr.pos_32 []
  type := .wifi
  state := .down
  ip4 := .cut CStr.pos_16 []
  ip6 := .cut (by decide) []
  gateway := .cut CStr.pos_16 []
  dns := (.cut CStr.pos_16 [], .cut CStr.pos_16 [])
  mac := .cut CStr.pos_18 []
  signal := 0
  ssid := .cut CStr.pos_64 []
  rxBytes := 0
  txBytes := 0
  isDefault := false

/-! ### monitor.c -/

def maxIfaces : Nat := 16

/-- `g_ifaces` up to `g_iface_count`. -/
structure Monitor where
  ifaces : List NetIface
  count_le : ifaces.length ≤ maxIfaces

/-- What the monitor finds in `/sys/class/net`: the entries of the directory, if it opens, which paths
there are, and the contents of the files that open. -/
structure SysClassNet where
  entries : Option (List (List UInt8))
  access : List UInt8 → Bool
  file : List UInt8 → Option (List UInt8)

def filePath (dName : List UInt8) (file : String) : List UInt8 :=
  ascii "/sys/class/net/" ++ dName ++ ascii "/" ++ ascii file

/-- The path in a `char path[256]`. -/
def pathOf (dName : List UInt8) (file : String) : List UInt8 := snprintf 256 (filePath dName file)

/-- `read_sysfs`: what it leaves in a `char buf[size]`, if it does. -/
def readSysfs (sys : SysClassNet) (path : List UInt8) (size : Nat) : Option (List UInt8) :=
  match sys.file path with
  | none => none
  | some content =>
    if content = [] then none
    else some ((cstring (fgets (size - 1) content).1).takeWhile (· ≠ newline))

def readSysfsU64 (sys : SysClassNet) (path : List UInt8) : UInt64 :=
  match readSysfs sys path 32 with
  | none => 0
  | some buf => strtoul 10 buf

/-- `monitor_init`. -/
def monitorInit : Monitor := ⟨[], Nat.zero_le _⟩

/-- The interface `monitor_update` makes of an entry. -/
def ifaceOf (sys : SysClassNet) (dName : List UInt8) : NetIface :=
  { NetIface.zero with
    name := .cut CStr.pos_32 dName
    type :=
      if sys.access (pathOf dName "wireless") then .wifi
      else if dName = ascii "lo" then .loopback
      else .ethernet
    state :=
      match readSysfs sys (pathOf dName "operstate") 32 with
      | some state => if state = ascii "up" then .connected else .down
      | none => .down
    mac :=
      match readSysfs sys (pathOf dName "address") 18 with
      | some mac => .cut CStr.pos_18 mac
      | none => .cut CStr.pos_18 []
    rxBytes := readSysfsU64 sys (pathOf dName "statistics/rx_bytes")
    txBytes := readSysfsU64 sys (pathOf dName "statistics/tx_bytes") }

/-- `ent->d_name[0] == '.'`. -/
def isHidden (dName : List UInt8) : Bool := dName.head? = some 46

/-- The loop of `monitor_update`. -/
def updateLoop (sys : SysClassNet) : List (List UInt8) → List NetIface → List NetIface
  | [], ifaces => ifaces
  | dName :: rest, ifaces =>
    if ifaces.length < maxIfaces then
      if isHidden dName then updateLoop sys rest ifaces
      else updateLoop sys rest (ifaces ++ [ifaceOf sys dName])
    else ifaces

/-- The loop makes an interface of each entry that is not hidden, while there is room. -/
theorem updateLoop_eq (sys : SysClassNet) : ∀ (entries : List (List UInt8)) (ifaces : List NetIface),
    updateLoop sys entries ifaces =
      ifaces ++ ((entries.filter fun d => !isHidden d).take (maxIfaces - ifaces.length)).map
        (ifaceOf sys) := by
  intro entries
  induction entries with
  | nil =>
      intro ifaces
      rw [updateLoop, List.filter_nil, List.take_nil, List.map_nil, List.append_nil]
  | cons d entries ih =>
      intro ifaces
      rw [updateLoop]
      split
      · rename_i hroom
        split
        · rename_i hd
          rw [ih, List.filter_cons_of_neg (by simp [hd])]
        · rename_i hd
          obtain ⟨k, hk⟩ : ∃ k, maxIfaces - ifaces.length = k + 1 := ⟨_, (Nat.succ_pred (by omega)).symm⟩
          rw [ih, List.filter_cons_of_pos (by simp [hd]), hk, List.take_succ_cons, List.map_cons,
            List.append_assoc, List.length_append, Nat.sub_add_eq, hk]
          rfl
      · rw [Nat.sub_eq_zero_of_le (Nat.not_lt.mp ‹_›), List.take_zero, List.map_nil, List.append_nil]

def monitorUpdate (m : Monitor) (sys : SysClassNet) : Monitor :=
  match sys.entries with
  | none => m
  | some entries =>
    { ifaces := updateLoop sys entries []
      count_le := by
        rw [updateLoop_eq, List.nil_append, List.length_map]
        exact List.length_take_le _ _ }

/-- `monitor_get_interfaces`: what it copies.  A negative `max` becomes a size no memory has. -/
def monitorGetInterfaces (m : Monitor) (max : Int32) : Option (List NetIface) :=
  if max < 0 then none else some (m.ifaces.take max.toInt.toNat)

/-- The loop of `monitor_get_traffic`. -/
def addTraffic (traffic : UInt64 × UInt64) (iface : NetIface) : UInt64 × UInt64 :=
  if iface.type = .loopback then traffic
  else (traffic.1 + iface.rxBytes, traffic.2 + iface.txBytes)

def monitorGetTraffic (m : Monitor) : UInt64 × UInt64 := m.ifaces.foldl addTraffic (0, 0)

/-! ### What the kernel shows -/

/-- The states the kernel knows. -/
inductive OperState where
  | unknown | notPresent | down | lowerLayerDown | testing | dormant | up
deriving DecidableEq, Repr

/-- `operstate`. -/
def OperState.text : OperState → List UInt8
  | .unknown => ascii "unknown"
  | .notPresent => ascii "notpresent"
  | .down => ascii "down"
  | .lowerLayerDown => ascii "lowerlayerdown"
  | .testing => ascii "testing"
  | .dormant => ascii "dormant"
  | .up => ascii "up"

structure Device where
  wireless : Bool
  operstate : OperState
  /-- The hardware address as it is printed, of any length. -/
  address : List UInt8
  address_line : newline ∉ address ∧ 0 ∉ address
  rx : UInt64
  tx : UInt64

/-- An entry of `/sys/class/net`, which not every time is a device. -/
structure Entry where
  name : CStr 16
  device : Option Device

/-- The files of an entry. -/
structure Shows (sys : SysClassNet) (e : Entry) : Prop where
  wireless : sys.access (filePath e.name.bytes "wireless") = e.device.any (·.wireless)
  operstate : sys.file (filePath e.name.bytes "operstate") =
    e.device.map fun d => d.operstate.text ++ [newline]
  address : sys.file (filePath e.name.bytes "address") = e.device.map fun d => d.address ++ [newline]
  rx : sys.file (filePath e.name.bytes "statistics/rx_bytes") =
    e.device.map fun d => printUnsigned d.rx.toNat ++ [newline]
  tx : sys.file (filePath e.name.bytes "statistics/tx_bytes") =
    e.device.map fun d => printUnsigned d.tx.toNat ++ [newline]

/-- The directory opens, and shows these entries in this order. -/
structure Presents (sys : SysClassNet) (es : List Entry) : Prop where
  entries : sys.entries = some (es.map (·.name.bytes))
  files : ∀ e ∈ es, Shows sys e

/-- A counter of an entry. -/
def Entry.counter (count : Device → UInt64) (e : Entry) : UInt64 := (e.device.map count).getD 0

/-- What an entry should come to in the table.  A hardware address has 17 characters there. -/
def Entry.iface (e : Entry) : NetIface :=
  { NetIface.zero with
    name := ⟨e.name.bytes, e.name.nul_free, e.name.length_lt.trans (by decide)⟩
    type :=
      if e.device.any (·.wireless) then .wifi
      else if e.name.bytes = ascii "lo" then .loopback
      else .ethernet
    state := if e.device.any (·.operstate = .up) then .connected else .down
    mac := .cut CStr.pos_18 ((e.device.map (·.address)).getD [])
    rxBytes := e.counter (·.rx)
    txBytes := e.counter (·.tx) }

def shown (es : List Entry) : List Entry := es.filter fun e => !isHidden e.name.bytes

/-- A counter, added up over the entries that are not the loopback. -/
def total (count : Device → UInt64) (es : List Entry) : Nat :=
  ((es.filter fun e => e.iface.type ≠ .loopback).map fun e => (e.counter count).toNat).sum

/-- What the functions of the monitor say of these entries. -/
structure Reports (m : Monitor) (es : List Entry) : Prop where
  interfaces : ∀ max : Int32, 0 ≤ max → monitorGetInterfaces m max =
    some (((shown es).take (min max.toInt.toNat maxIfaces)).map Entry.iface)
  rx : (monitorGetTraffic m).1.toNat = total (·.rx) ((shown es).take maxIfaces) % 2 ^ 64
  tx : (monitorGetTraffic m).2.toNat = total (·.tx) ((shown es).take maxIfaces) % 2 ^ 64
  /-- As long as there is room for all of them, the order in which they are listed is no matter. -/
  order : (shown es).length ≤ maxIfaces → ∀ es', es'.Perm es →
    (monitorGetTraffic m).1.toNat = total (·.rx) (shown es') % 2 ^ 64 ∧
      (monitorGetTraffic m).2.toNat = total (·.tx) (shown es') % 2 ^ 64

/-! ### Reading the files -/

section

variable {sys : SysClassNet} {e : Entry} {es es' : List Entry} {m : Monitor}

/-- The names of the kernel leave room for what stands around them. -/
theorem pathOf_eq (e : Entry) (file : String) (h : (ascii file).length < 32) :
    pathOf e.name.bytes file = filePath e.name.bytes file := by
  refine snprintf_eq ?_
  have hname := e.name.length_lt
  have hdir : (ascii "/sys/class/net/").length = 15 := by decide
  have hslash : (ascii "/").length = 1 := by decide
  simp only [filePath, List.length_append, hdir, hslash]
  omega

/-- A file of one line is read up to the size of the array. -/
theorem readSysfs_line {path text : List UInt8} (hfile : sys.file path = some (text ++ [newline]))
    (hline : newline ∉ text ∧ 0 ∉ text) (n : Nat) :
    readSysfs sys path (n + 1) = some (text.take n) := by
  obtain ⟨hnl, hnul⟩ := hline
  have hne : text ++ [newline] ≠ [] := by simp
  simp only [readSysfs, hfile, if_neg hne, Nat.add_sub_cancel]
  congr 1
  by_cases hlen : text.length < n
  · rw [fgets_line hnl hlen, List.take_of_length_le (Nat.le_of_lt hlen),
      cstring_of_not_mem (by simpa [newline] using hnul), takeWhile_ne_append hnl]
  · have hcut : (text.take n).length = n := List.length_take_of_le (Nat.not_lt.mp hlen)
    have hnl' : newline ∉ text.take n := fun h => hnl (List.mem_of_mem_take h)
    have hread := fgets_long hnl' (text.drop n ++ [newline])
    rw [hcut, ← List.append_assoc, List.take_append_drop] at hread
    rw [hread, cstring_of_not_mem fun h => hnul (List.mem_of_mem_take h)]
    exact List.takeWhile_eq_self_iff.mpr fun c hc => by simpa using ne_of_mem_of_not_mem hc hnl'

/-- A file that fits is read whole. -/
theorem readSysfs_map {path : List UInt8} {text : Device → List UInt8} {n : Nat} {d : Option Device}
    (hfile : sys.file path = d.map fun d => text d ++ [newline])
    (htext : ∀ d, (newline ∉ text d ∧ 0 ∉ text d) ∧ (text d).length ≤ n) :
    readSysfs sys path (n + 1) = d.map text := by
  cases d with
  | none => simp [readSysfs, hfile]
  | some d =>
      obtain ⟨hline, hlen⟩ := htext d
      rw [readSysfs_line hfile hline, List.take_of_length_le hlen, Option.map_some]

theorem OperState.text_line (o : OperState) :
    (newline ∉ o.text ∧ 0 ∉ o.text) ∧ o.text.length ≤ 31 := by
  cases o <;> decide

theorem OperState.text_eq_up {o : OperState} : o.text = ascii "up" ↔ o = .up := by
  cases o <;> decide

/-- The largest counter has twenty digits. -/
theorem printUnsigned_line (x : UInt64) :
    (newline ∉ printUnsigned x.toNat ∧ 0 ∉ printUnsigned x.toNat) ∧
      (printUnsigned x.toNat).length ≤ 31 := by
  have hdigit : ∀ c ∈ printUnsigned x.toNat, isDigit 10 c = true := fun c hc =>
    isDigit_of_mem_printNat (by decide) (by decide) hc
  refine ⟨⟨fun h => ?_, fun h => ?_⟩, ?_⟩
  · exact absurd (hdigit _ h) (by decide)
  · exact isDigit_ne_zero (hdigit _ h) rfl
  · exact length_printNat_le (by decide) (by decide) (x.toNat_lt.trans (by decide))

theorem strtoul_printUnsigned_ten (x : UInt64) : strtoul 10 (printUnsigned x.toNat) = x := by
  rw [strtoul, printUnsigned, scanInteger_printNat (by decide) (by decide), Option.map_some,
    Option.getD_some, toUlong_of_lt x.toNat_lt]
  simp

theorem readSysfsU64_eq {path : List UInt8} {count : Device → UInt64}
    (hfile : sys.file path = e.device.map fun d => printUnsigned (count d).toNat ++ [newline]) :
    readSysfsU64 sys path = e.counter count := by
  rw [readSysfsU64, readSysfs_map hfile fun d => printUnsigned_line (count d), Entry.counter]
  cases e.device with
  | none => rfl
  | some d => exact strtoul_printUnsigned_ten (count d)

/-- An address that is too long loses the same bytes to `fgets` as to the array. -/
theorem cut_take {text : List UInt8} (h : 0 ∉ text) :
    CStr.cut CStr.pos_18 (text.take 17) = CStr.cut CStr.pos_18 text := by
  have hcut : ∀ s : List UInt8, 0 ∉ s → (CStr.cut CStr.pos_18 s).bytes = s.take 17 := fun s hs =>
    congrArg (List.take 17) (cstring_of_not_mem hs)
  have hbytes : (CStr.cut CStr.pos_18 (text.take 17)).bytes = (CStr.cut CStr.pos_18 text).bytes := by
    rw [hcut _ h, hcut _ fun hm => h (List.mem_of_mem_take hm), List.take_take, Nat.min_self]
  rw [← CStr.cut_bytes CStr.pos_18 (CStr.cut CStr.pos_18 (text.take 17)), hbytes, CStr.cut_bytes]

/-- **An entry is taken over** as the kernel shows it. -/
theorem ifaceOf_eq (h : Shows sys e) : ifaceOf sys e.name.bytes = e.iface := by
  have hname : (CStr.cut CStr.pos_32 e.name.bytes) =
      ⟨e.name.bytes, e.name.nul_free, e.name.length_lt.trans (by decide)⟩ :=
    CStr.cut_bytes CStr.pos_32 ⟨e.name.bytes, e.name.nul_free, e.name.length_lt.trans (by decide)⟩
  have hstate := readSysfs_map h.operstate fun d => d.operstate.text_line
  have hrx := readSysfsU64_eq h.rx
  have htx := readSysfsU64_eq h.tx
  simp only [ifaceOf, Entry.iface, hname, pathOf_eq e "wireless" (by decide), h.wireless,
    pathOf_eq e "operstate" (by decide), hstate,
    pathOf_eq e "address" (by decide),
    pathOf_eq e "statistics/rx_bytes" (by decide), hrx,
    pathOf_eq e "statistics/tx_bytes" (by decide), htx]
  have haddress := h.address
  cases hd : e.device with
  | none =>
      rw [hd] at haddress
      simp [readSysfs, haddress]
  | some d =>
      rw [hd] at haddress
      simp [readSysfs_line haddress d.address_line 17, cut_take d.address_line.2, OperState.text_eq_up]

/-! ### The table -/

theorem map_filter_shown (es : List Entry) :
    ((es.map (·.name.bytes)).filter fun d => !isHidden d) = (shown es).map (·.name.bytes) := by
  rw [List.filter_map, shown]
  rfl

/-- An update whose directory opens makes the table anew. -/
theorem monitorUpdate_ifaces (h : Presents sys es) (m : Monitor) :
    (monitorUpdate m sys).ifaces = ((shown es).take maxIfaces).map Entry.iface := by
  simp only [monitorUpdate]
  split
  · rename_i hnone
    rw [h.entries] at hnone
    cases hnone
  · rename_i entries hsome
    obtain rfl := Option.some.inj (h.entries.symm.trans hsome)
    dsimp only
    rw [updateLoop_eq, map_filter_shown, List.nil_append, List.length_nil, Nat.sub_zero, ← List.map_take,
      List.map_map]
    refine List.map_congr_left fun e he => ?_
    exact ifaceOf_eq (h.files e (List.mem_of_mem_filter (List.mem_of_mem_take he)))

theorem monitorUpdate_closed (h : sys.entries = none) (m : Monitor) : monitorUpdate m sys = m := by
  simp only [monitorUpdate]
  split
  · rfl
  · rename_i hsome
    rw [h] at hsome
    cases hsome

/-- What later updates leave that find no directory. -/
theorem foldl_closed {views : List SysClassNet} (h : ∀ v ∈ views, v.entries = none) (m : Monitor) :
    views.foldl monitorUpdate m = m := by
  induction views with
  | nil => rfl
  | cons v views ih =>
      rw [List.foldl_cons, monitorUpdate_closed (h v List.mem_cons_self)]
      exact ih fun v' hv' => h v' (List.mem_cons_of_mem v hv')

/-! ### The traffic -/

/-- The loop adds the entries to what it has. -/
theorem foldl_addTraffic : ∀ (es : List Entry) (traffic : UInt64 × UInt64),
    ((es.map Entry.iface).foldl addTraffic traffic).1.toNat =
        (traffic.1.toNat + total (·.rx) es) % 2 ^ 64 ∧
      ((es.map Entry.iface).foldl addTraffic traffic).2.toNat =
        (traffic.2.toNat + total (·.tx) es) % 2 ^ 64 := by
  intro es
  induction es with
  | nil =>
      intro traffic
      exact ⟨(Nat.mod_eq_of_lt traffic.1.toNat_lt).symm, (Nat.mod_eq_of_lt traffic.2.toNat_lt).symm⟩
  | cons e es ih =>
      intro traffic
      rw [List.map_cons, List.foldl_cons, addTraffic]
      split
      · rename_i hlo
        have htotal : ∀ count, total count (e :: es) = total count es := fun count => by
          rw [total, List.filter_cons_of_neg (by simpa using hlo), total]
        rw [htotal, htotal]
        exact ih traffic
      · rename_i hlo
        have htotal : ∀ count, total count (e :: es) = (e.counter count).toNat + total count es :=
          fun count => by
            rw [total, List.filter_cons_of_pos (by simpa using hlo), List.map_cons, List.sum_cons, total]
        obtain ⟨hrx, htx⟩ := ih (traffic.1 + e.iface.rxBytes, traffic.2 + e.iface.txBytes)
        rw [hrx, htx, htotal, htotal, UInt64.toNat_add, UInt64.toNat_add, Nat.mod_add_mod,
          Nat.mod_add_mod, Nat.add_assoc, Nat.add_assoc]
        exact ⟨rfl, rfl⟩

/-- The sum does not depend on the order. -/
theorem total_perm (count : Device → UInt64) (h : es.Perm es') : total count es = total count es' :=
  ((h.filter _).map _).sum_eq

theorem Reports.of_ifaces (h : m.ifaces = ((shown es).take maxIfaces).map Entry.iface) :
    Reports m es := by
  have htraffic := foldl_addTraffic ((shown es).take maxIfaces) (0, 0)
  rw [← h] at htraffic
  obtain ⟨hrx, htx⟩ := htraffic
  have hzero : ∀ n : Nat, (0 : UInt64).toNat + n = n := Nat.zero_add
  rw [hzero] at hrx htx
  refine ⟨fun max hmax => ?_, hrx, htx, fun hle es' hperm => ?_⟩
  · rw [monitorGetInterfaces, if_neg (Int32.not_lt.mpr hmax), h, ← List.map_take, List.take_take]
  · rw [List.take_of_length_le hle] at hrx htx
    have hshown : (shown es').Perm (shown es) := hperm.filter _
    rw [total_perm _ hshown, total_perm _ hshown]
    exact ⟨hrx, htx⟩

/-- **What netd knows of the interfaces.**  After any updates it is what the last directory that opened
has shown, but for what is behind the 17th character of a hardware address. -/
theorem monitor_reports (before after : List SysClassNet) (h : Presents sys es)
    (hafter : ∀ v ∈ after, v.entries = none) :
    Reports ((before ++ sys :: after).foldl monitorUpdate monitorInit) es := by
  rw [List.foldl_append, List.foldl_cons, foldl_closed hafter]
  exact .of_ifaces (monitorUpdate_ifaces h _)

end

/-! ### A directory -/

def deviceFiles (name : List UInt8) (d : Device) : List (List UInt8 × List UInt8) :=
  [(filePath name "operstate", d.operstate.text), (filePath name "address", d.address),
    (filePath name "statistics/rx_bytes", printUnsigned d.rx.toNat),
    (filePath name "statistics/tx_bytes", printUnsigned d.tx.toNat)]

/-- The directory of these entries. -/
def directory (es : List Entry) : SysClassNet where
  entries := some (es.map (·.name.bytes))
  access := fun path => es.any fun e =>
    e.device.any (·.wireless) && decide (path = filePath e.name.bytes "wireless")
  file := fun path =>
    ((es.flatMap fun e => (e.device.map (deviceFiles e.name.bytes)).getD []).find?
      fun file => decide (file.1 = path)).map fun file => file.2 ++ [newline]

def device (wireless : Bool) (operstate : OperState) (rx tx : UInt64) : Device :=
  ⟨wireless, operstate, ascii "52:54:00:12:34:56", by decide, rx, tx⟩

/-- A loopback, and two devices of which one has received as much as its counter can hold. -/
def office : List Entry :=
  [⟨.lit "." (by decide), none⟩, ⟨.lit ".." (by decide), none⟩,
    ⟨.lit "lo" (by decide), some (device false .unknown 640 640)⟩,
    ⟨.lit "eth0" (by decide), some (device false .up 18446744073709551615 1500)⟩,
    ⟨.lit "wlan0" (by decide), some (device true .dormant 2 90)⟩]

theorem office_presents : Presents (directory office) office := by
  refine ⟨rfl, fun e he => ?_⟩
  simp only [office, List.mem_cons, List.not_mem_nil, or_false] at he
  rcases he with rfl | rfl | rfl | rfl | rfl
  all_goals exact ⟨by decide +kernel, by rfl, by rfl, by rfl, by rfl⟩

theorem monitor_reports_office :
    (monitorGetTraffic ([directory [], directory office, ⟨none, fun _ => false, fun _ => none⟩].foldl
      monitorUpdate monitorInit)).1.toNat = 1 := by
  have hreports := monitor_reports [directory []] [⟨none, fun _ => false, fun _ => none⟩] office_presents
    (by simp)
  exact hreports.rx.trans (by decide +kernel)

end LumiOS.Netd
