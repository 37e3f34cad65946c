import Mathlib.Algebra.Order.BigOperators.Group.List
import LumiOS.Support.Appends
import LumiOS.Sandbox.Policy

/-!
# Sandbox — Profile

`apparmor_generate_profile`: the text of a profile, and the `snprintf` calls that write it.

`len` is checked once, against 256, and a policy can have a longer text.  The calls stay within the buffer
exactly when what stands before the closing brace fits it (`profileFits_iff`).
-/

namespace LumiOS.Sandbox

open Support

/-! ### apparmor.c -/

/-- `SBX_NET_UDP`. -/
def netUdp : UInt32 := 4

/-- `SBX_HW_CAMERA`. -/
def hwCamera : UInt32 := 1

/-- `SBX_HW_MIC`. -/
def hwMic : UInt32 := 2

/-- `SBX_HW_GPS`. -/
def hwGps : UInt32 := 4

/-- `SBX_HW_BLUETOOTH`. -/
def hwBluetooth : UInt32 := 8

/-- `perms`. -/
def profilePerms (flags : UInt32) : List UInt8 :=
  (if flags &&& fsRead ≠ 0 then ascii "r" else []) ++
  (if flags &&& fsWrite ≠ 0 then ascii "w" else []) ++
  (if flags &&& fsExecute ≠ 0 then ascii "x" else []) ++
  (if flags &&& fsCreate ≠ 0 then ascii "c" else []) ++
  (if flags &&& fsDelete ≠ 0 then ascii "d" else [])

/-- The name in the first line. -/
def Policy.profileName (policy : Policy) : List UInt8 :=
  if policy.name.bytes ≠ [] then policy.name.bytes else ascii "lumi-app"

/-- The first line, and what every profile has. -/
def profileHeader (policy : Policy) : List UInt8 :=
  ascii "#include <tunables/global>\n\nprofile " ++ policy.profileName ++
    ascii " flags=(attach_disconnected) \x7b\n  #include <abstractions/base>\n\n"

/-- The line of a path rule. -/
def PathRule.profileLine (r : PathRule) : List UInt8 :=
  ascii "  " ++ r.path.bytes ++ ascii "/** " ++ profilePerms r.flags ++ ascii ",\n"

/-- A text that is appended under a condition. -/
def appendIf (c : Prop) [Decidable c] (text : String) : List (List UInt8) :=
  if c then [ascii text] else []

/-- The lines for the network flags. -/
def networkLines (netFlags : UInt32) : List (List UInt8) :=
  if netFlags = netNone then [ascii "\n  deny network,\n"]
  else
    appendIf (netFlags &&& netTcpConnect ≠ 0) "  network tcp,\n" ++
    appendIf (netFlags &&& netUdp ≠ 0) "  network udp,\n"

/-- The lines for the devices that are not permitted. -/
def hardwareLines (hwFlags : UInt32) : List (List UInt8) :=
  appendIf (hwFlags &&& hwCamera = 0) "  deny /dev/video* rw,\n" ++
  appendIf (hwFlags &&& hwMic = 0) "  deny /dev/snd/* rw,\n" ++
  appendIf (hwFlags &&& hwGps = 0) "  deny /dev/ttyUSB* rw,\n" ++
  appendIf (hwFlags &&& hwBluetooth = 0) "  deny /dev/hci* rw,\n"

/-- What the calls before the last append. -/
def profileBody (policy : Policy) : List (List UInt8) :=
  profileHeader policy :: policy.pathRules.map PathRule.profileLine ++
    networkLines policy.netFlags ++ hardwareLines policy.hwFlags

/-- The text of the last call. -/
def profileClose : List UInt8 := ascii "\x7d\n"

/-- `apparmor_generate_profile` on a buffer of `len` bytes: what it returns, and its calls. -/
def apparmorGenerateProfile (policy : Policy) (len : UInt64) : Int × List SnprintfCall :=
  if len < 256 then (-1, [])
  else
    let texts := profileBody policy ++ [profileClose]
    ((texts.flatten.length : Int), appendTexts len 0 texts)

/-- Every call starts within the buffer and is told no more than the room left. -/
def ProfileFits (policy : Policy) (len : UInt64) : Prop :=
  ∀ call ∈ (apparmorGenerateProfile policy len).2, call.Fits len

/-! ### The length of a profile -/

/-- The length of a rule's line. -/
def PathRule.profileSize (r : PathRule) : Nat := r.path.bytes.length + (profilePerms r.flags).length + 8

/-- The length of the network lines. -/
def networkSize (netFlags : UInt32) : Nat :=
  if netFlags = netNone then 17
  else
    (if netFlags &&& netTcpConnect ≠ 0 then 15 else 0) + (if netFlags &&& netUdp ≠ 0 then 15 else 0)

/-- The length of the device lines. -/
def hardwareSize (hwFlags : UInt32) : Nat :=
  (if hwFlags &&& hwCamera = 0 then 23 else 0) + (if hwFlags &&& hwMic = 0 then 22 else 0) +
    (if hwFlags &&& hwGps = 0 then 24 else 0) + (if hwFlags &&& hwBluetooth = 0 then 21 else 0)

/-- The length of the text before the closing brace. -/
def profileSize (policy : Policy) : Nat :=
  policy.profileName.length + 99 + (policy.pathRules.map PathRule.profileSize).sum +
    networkSize policy.netFlags + hardwareSize policy.hwFlags

theorem length_appendIf (c : Prop) [Decidable c] (text : String) :
    (appendIf c text).flatten.length = if c then (ascii text).length else 0 := by
  rw [appendIf]
  split
  · simp
  · rfl

theorem length_profileLine (r : PathRule) : r.profileLine.length = r.profileSize := by
  have hopen : (ascii "  ").length = 2 := rfl
  have hmid : (ascii "/** ").length = 4 := rfl
  have hend : (ascii ",\n").length = 2 := rfl
  simp only [PathRule.profileLine, PathRule.profileSize, List.length_append, hopen, hmid, hend]
  omega

theorem length_networkLines (netFlags : UInt32) :
    (networkLines netFlags).flatten.length = networkSize netFlags := by
  rw [networkLines, networkSize]
  split
  · rfl
  · rw [List.flatten_append, List.length_append, length_appendIf, length_appendIf]
    rfl

theorem length_hardwareLines (hwFlags : UInt32) :
    (hardwareLines hwFlags).flatten.length = hardwareSize hwFlags := by
  simp only [hardwareLines, List.flatten_append, List.length_append, length_appendIf]
  rfl

theorem length_profileHeader (policy : Policy) :
    (profileHeader policy).length = policy.profileName.length + 99 := by
  have hfirst : (ascii "#include <tunables/global>\n\nprofile ").length = 36 := by decide
  have hrest : (ascii " flags=(attach_disconnected) \x7b\n  #include <abstractions/base>\n\n").length =
    63 := by decide
  rw [profileHeader, List.length_append, List.length_append, hfirst, hrest]
  omega

theorem length_profileBody (policy : Policy) :
    (profileBody policy).flatten.length = profileSize policy := by
  have hrules : (policy.pathRules.map PathRule.profileLine).flatten.length =
      (policy.pathRules.map PathRule.profileSize).sum := by
    rw [List.length_flatten, List.map_map]
    congr 1
    exact List.map_congr_left fun r _ => length_profileLine r
  simp only [profileBody, List.cons_append, List.flatten_cons, List.flatten_append, List.length_append,
    length_profileHeader, hrules, length_networkLines, length_hardwareLines, profileSize]
  omega

theorem length_profilePerms_le (flags : UInt32) : (profilePerms flags).length ≤ 5 := by
  have hone (c : Prop) [Decidable c] (text : String) (h : (ascii text).length = 1) :
      (if c then ascii text else []).length ≤ 1 := by
    split
    · exact h.le
    · exact Nat.zero_le 1
  have hr := hone (flags &&& fsRead ≠ 0) "r" rfl
  have hw := hone (flags &&& fsWrite ≠ 0) "w" rfl
  have hx := hone (flags &&& fsExecute ≠ 0) "x" rfl
  have hc := hone (flags &&& fsCreate ≠ 0) "c" rfl
  have hd := hone (flags &&& fsDelete ≠ 0) "d" rfl
  simp only [profilePerms, List.length_append]
  omega

/-- No offset comes near the end of the range of an `int`. -/
theorem profileSize_le (policy : Policy) : profileSize policy ≤ 17434 := by
  have hname : policy.profileName.length ≤ 63 := by
    rw [Policy.profileName]
    split
    · exact Nat.le_of_lt_succ policy.name.length_lt
    · decide
  have hrule : ∀ n ∈ policy.pathRules.map PathRule.profileSize, n ≤ 268 := by
    intro n hn
    obtain ⟨r, -, rfl⟩ := List.mem_map.mp hn
    have hpath : r.path.bytes.length < 256 := r.path.length_lt
    have hperms := length_profilePerms_le r.flags
    rw [PathRule.profileSize]
    omega
  have hrules : (policy.pathRules.map PathRule.profileSize).sum ≤
      (policy.pathRules.map PathRule.profileSize).length * 268 := List.sum_le_card_nsmul _ 268 hrule
  rw [List.length_map] at hrules
  have hcount : policy.pathRules.length ≤ 64 := policy.pathRules_le
  have hnet : networkSize policy.netFlags ≤ 30 := by
    rw [networkSize]
    split_ifs <;> decide
  have hhw : hardwareSize policy.hwFlags ≤ 90 := by
    rw [hardwareSize]
    split_ifs <;> decide
  rw [profileSize]
  omega

/-- **The buffer is not left** exactly when it has room for the profile up to its closing brace. -/
theorem profileFits_iff (policy : Policy) {len : UInt64} (h : 256 ≤ len) :
    ProfileFits policy len ↔ profileSize policy ≤ len.toNat := by
  have hlen : ¬ len < 256 := UInt64.not_lt.mpr h
  have hfit := appendTexts_fit_iff len 0 (profileBody policy) profileClose
  rw [Nat.zero_add, length_profileBody] at hfit
  rw [ProfileFits, apparmorGenerateProfile, if_neg hlen]
  exact hfit

/-- A program with a single directory to itself. -/
def onePath (path : String) : Policy := Policy.zero.withPath path (fsRead ||| fsWrite)

theorem profileFits_data : ProfileFits (onePath "/data") 256 :=
  (profileFits_iff (onePath "/data") (by decide)).mpr (by decide)

/-- A longer path, and the last of the four device lines passes the end of 256 bytes. -/
theorem profile_overflows :
    ¬ ∀ (policy : Policy) (len : UInt64), 256 ≤ len → ProfileFits policy len := by
  intro h
  have hfit := h (onePath "/data/applications/org.lumios.settings/files") 256 (by decide)
  have hcall : ∃ call ∈ (apparmorGenerateProfile
      (onePath "/data/applications/org.lumios.settings/files") 256).2, 256 < call.off := by
    decide +kernel
  obtain ⟨call, hc, hoff⟩ := hcall
  exact Nat.not_lt.mpr (hfit call hc).off_le hoff

end LumiOS.Sandbox
