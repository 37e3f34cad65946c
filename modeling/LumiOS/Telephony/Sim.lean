import Mathlib.Data.List.Find
import LumiOS.Telephony.CommandLine
import LumiOS.Telephony.Sms

/-!
# Telephony — Sim

`sim.c`: the state of a SIM slot as the modem reports it, and what depends on it.

`sim_get_state` looks for the codes `READY`, `SIM PIN` and `SIM PUK` anywhere in the reply, so that one of
them is also found within another code: a card that is `NOT READY` is ready.  The state is that of the
code exactly when the first of the three that occurs in the reply is the code itself
(`simGetState_sound_iff`).
-/

namespace LumiOS.Telephony

open Support

/-! ### sim.c -/

/-- What `sim_get_info` reads of a card, and `slot`. -/
structure SimInfo where
  iccid : CStr 24
  imsi : CStr 16
  operatorName : CStr 64
  operatorMcc : CStr 4
  operatorMnc : CStr 4
  phoneNumber : CStr 32
  slot : Int32
deriving DecidableEq, Repr

/-- `telephonyd_t`, with its two SIM slots and the one in use. -/
structure Handset extends Phone where
  info : Fin 2 → SimInfo
  activeSim : Int32

/-- `modem_send_at` with `char resp[256]`. -/
def Handset.send (t : Handset) (cmd : List UInt8) (reply : Reply) : Int × List UInt8 × Handset :=
  let (ret, resp, t') := t.toTelephonyd.send cmd reply
  (ret, resp, { t with toTelephonyd := t' })

def Handset.setState (t : Handset) (i : Fin 2) (state : SimState) : Handset :=
  { t with sim := Function.update t.sim i state }

def Handset.setInfo (t : Handset) (i : Fin 2) (f : SimInfo → SimInfo) : Handset :=
  { t with info := Function.update t.info i (f (t.info i)) }

/-- The state for a reply. -/
def cpinState (resp : List UInt8) : SimState :=
  if (strstr (ascii "READY") resp).isSome then .ready
  else if (strstr (ascii "SIM PIN") resp).isSome then .pinRequired
  else if (strstr (ascii "SIM PUK") resp).isSome then .pukRequired
  else .notReady

def simGetState (t : Handset) (slot : Int32) (reply : Reply) : Int × Handset :=
  match simSlot slot with
  | none => (-1, t)
  | some i =>
    let (ret, resp, t) := t.send (ascii "AT+CPIN?") reply
    if ret < 0 then (-1, t.setState i .absent)
    else (0, (t.setState i (cpinState resp)).setInfo i fun info => { info with slot := slot })

/-- The IMSI, with the codes of the country and the network it begins with. -/
def SimInfo.takeImsi (info : SimInfo) (resp : List UInt8) : SimInfo :=
  match breakAt newline resp with
  | none => info
  | some (_, line) =>
    let imsi : CStr 16 := .cut CStr.pos_16 (line.takeWhile (· ≠ 13))
    if 5 ≤ imsi.bytes.length then
      { info with
        imsi := imsi
        operatorMcc := .cut (by decide) (imsi.bytes.take 3)
        operatorMnc := .cut (by decide) ((imsi.bytes.drop 3).take 2) }
    else { info with imsi := imsi }

def SimInfo.takeIccid (info : SimInfo) (resp : List UInt8) : SimInfo :=
  match breakAt 58 resp with
  | none => info
  | some (_, line) =>
    { info with iccid := .cut (by decide) ((line.dropWhile (· = 32)).takeWhile (· ≠ 13)) }

def SimInfo.takeOperator (info : SimInfo) (resp : List UInt8) : SimInfo :=
  match breakAt 34 resp with
  | none => info
  | some (_, quote) => { info with operatorName := .cut CStr.pos_64 (quote.takeWhile (· ≠ 34)) }

/-- The number stands between the third quote and the fourth. -/
def SimInfo.takeNumber (info : SimInfo) (resp : List UInt8) : SimInfo :=
  match (do
      let (_, quote) ← breakAt 34 resp
      let (_, behind) ← breakAt 34 quote
      breakAt 34 behind) with
  | none => info
  | some (_, num) => { info with phoneNumber := .cut CStr.pos_32 (num.takeWhile (· ≠ 34)) }

/-- One of the four queries of `sim_get_info`. -/
def Handset.query (t : Handset) (i : Fin 2) (cmd : List UInt8) (reply : Reply)
    (take : SimInfo → List UInt8 → SimInfo) : Handset :=
  let (ret, resp, t) := t.send cmd reply
  if ret = 0 then t.setInfo i fun info => take info resp else t

def simGetInfo (t : Handset) (slot : Int32) (reply₁ reply₂ reply₃ reply₄ : Reply) : Int × Handset :=
  match simSlot slot with
  | none => (-1, t)
  | some i =>
    if t.sim i ≠ .ready then (-1, t)
    else
      let t := t.query i (ascii "AT+CIMI") reply₁ SimInfo.takeImsi
      let t := t.query i (ascii "AT+CCID") reply₂ SimInfo.takeIccid
      let t := t.query i (ascii "AT+COPS?") reply₃ SimInfo.takeOperator
      let t := t.query i (ascii "AT+CNUM") reply₄ SimInfo.takeNumber
      (0, t)

def simSwitch (t : Handset) (slot : Int32) : Int × Handset :=
  match simSlot slot with
  | none => (-1, t)
  | some i => if t.sim i ≠ .ready then (-1, t) else (0, { t with activeSim := slot })

/-! ### Replies -/

/-- A reply to `AT+CPIN?`: its status line, what stands before it, and what follows. -/
structure CpinReply where
  before : List UInt8
  code : List UInt8
  after : List UInt8
  before_lines : LineStart before
  code_line : newline ∉ code ∧ 13 ∉ code
  after_lines : LineStart after

def CpinReply.bytes (r : CpinReply) : List UInt8 :=
  r.before ++ ascii "+CPIN: " ++ r.code ++ crlf ++ r.after ++ ascii "OK" ++ crlf

/-- The code that means a state. -/
def SimState.code : SimState → Option (List UInt8)
  | .ready => some (ascii "READY")
  | .pinRequired => some (ascii "SIM PIN")
  | .pukRequired => some (ascii "SIM PUK")
  | .absent | .notReady | .error => none

/-- The slot is in the state of a code only if that is the card's, and only a card that is ready is asked
for more, or switched to. -/
structure CpinReply.Sound (r : CpinReply) (slot : Int32) (t : Handset) : Prop where
  state : ∀ i code, simSlot slot = some i → (t.sim i).code = some code → r.code = code
  getInfo : ∀ reply₁ reply₂ reply₃ reply₄, (simGetInfo t slot reply₁ reply₂ reply₃ reply₄).1 = 0 →
    r.code = ascii "READY"
  switch : (simSwitch t slot).1 = 0 → r.code = ascii "READY"

/-- The text a reply leaves in `char resp[256]`. -/
def said (reads : List (List UInt8)) : List UInt8 := cstring (readLoop 20 [] reads)

/-- The codes that are looked for, in this order. -/
def simCodes : List (List UInt8) := [ascii "READY", ascii "SIM PIN", ascii "SIM PUK"]

/-- A text occurs in the code or in another line, in the first `n` bytes of the reply. -/
def CpinReply.Mentions (r : CpinReply) (n : Nat) (text : List UInt8) : Prop :=
  text <:+: r.before.take n ∨ text <:+: r.code.take (n - r.before.length - 7) ∨
    text <:+: r.after.take (n - r.before.length - 7 - r.code.length - 2)

instance (r : CpinReply) (n : Nat) (text : List UInt8) : Decidable (r.Mentions n text) :=
  inferInstanceAs (Decidable (_ ∨ _ ∨ _))

/-- The first code that is found there. -/
def CpinReply.found (r : CpinReply) (n : Nat) : Option (List UInt8) :=
  simCodes.find? fun code => r.Mentions n code

section

variable {t : Handset} {slot : Int32} {i : Fin 2} {s : List UInt8} {reads : List (List UInt8)}
  {r : CpinReply}

theorem modemSendAt_said {modemFd : Int} (hfd : 0 ≤ modemFd) (reads : List (List UInt8)) :
    modemSendAt modemFd ⟨true, reads⟩ = (if ascii "OK" <:+: said reads then 0 else -1, said reads) := by
  simp only [modemSendAt, if_neg (Int.not_lt.mpr hfd), Bool.true_eq_false, if_false, ← strstr_isSome]
  by_cases hempty : readLoop 20 [] reads = []
  · simp only [said, hempty, if_true]
    rfl
  · rw [if_neg hempty]
    rfl

theorem code_cpinState (s : List UInt8) :
    (cpinState s).code = simCodes.find? fun code => decide (code <:+: s) := by
  have hdec : ∀ code : List UInt8, decide (code <:+: s) = (strstr code s).isSome := fun code =>
    (decide_eq_decide.mpr strstr_isSome.symm).trans (Bool.decide_coe _)
  simp only [cpinState, simCodes, hdec, List.find?_cons, List.find?_nil]
  cases (strstr (ascii "READY") s).isSome with
  | true => rfl
  | false =>
      cases (strstr (ascii "SIM PIN") s).isSome with
      | true => rfl
      | false => cases (strstr (ascii "SIM PUK") s).isSome <;> rfl

/-- No code has a character of the line ends or of the marks in front of the code and of `OK`. -/
theorem simCodes_ok {code : List UInt8} (h : code ∈ simCodes) :
    5 ≤ code.length ∧ code.head? ≠ some 32 ∧ 43 ∉ code ∧ 58 ∉ code ∧ 13 ∉ code ∧ 10 ∉ code ∧ 79 ∉ code := by
  revert code
  decide

/-- A code occurs in a reply only within one of its lines. -/
theorem infix_take_bytes {code : List UInt8} (h : code ∈ simCodes) (n : Nat) :
    code <:+: r.bytes.take n ↔ r.Mentions n code := by
  obtain ⟨hlen, hblank, hplus, hcolon, hcr, hlf, ho⟩ := simCodes_ok h
  have hne : code ≠ [] := List.ne_nil_of_length_pos (by omega)
  have hshort : ∀ l : List UInt8, l.length < 5 → ∀ k, ¬ code <:+: l.take k := fun l hl k hin => by
    have := hin.length_le
    rw [List.length_take] at this
    omega
  have hsplit : r.bytes = r.before ++ 43 :: (ascii "CPIN" ++ 58 :: ((32 :: r.code) ++ 13 ::
      ([] ++ 10 :: (r.after ++ 79 :: 75 :: crlf)))) := by
    simp [CpinReply.bytes, crlf, ascii]
  have hcode : ∀ k, code <:+: (32 :: r.code).take k ↔ code <:+: r.code.take (k - 1) := by
    intro k
    cases k with
    | zero => simp [hne]
    | succ k =>
        rw [List.take_succ_cons, Nat.add_sub_cancel, List.infix_cons_iff, or_iff_right]
        rintro ⟨rest, hrest⟩
        cases code with
        | nil => exact hne rfl
        | cons c code =>
            obtain rfl := (List.cons.inj hrest).1
            exact hblank rfl
  have hcpin : (ascii "CPIN").length = 4 := rfl
  rw [hsplit, infix_take_append_cons_iff hne hplus, infix_take_append_cons_iff hne hcolon,
    infix_take_append_cons_iff hne hcr, infix_take_append_cons_iff hne hlf,
    infix_take_append_cons_iff hne ho, hcode, or_iff_right (hshort (ascii "CPIN") (by decide) _),
    or_iff_right (hshort [] (by decide) _), or_iff_left (hshort (75 :: crlf) (by decide) _),
    CpinReply.Mentions, hcpin, List.length_cons, List.length_nil]
  have h₁ : n - r.before.length - 1 - 4 - 1 - 1 = n - r.before.length - 7 := by omega
  have h₂ : n - r.before.length - 1 - 4 - 1 - (r.code.length + 1) - 1 - 0 - 1 =
      n - r.before.length - 7 - r.code.length - 2 := by omega
  rw [h₁, h₂]

theorem said_begins (hreads : reads.flatten = r.bytes) : said reads <+: r.bytes := by
  have hpre := readInto_begins respSize 20 [] reads
  rw [readInto_respSize, List.nil_append, hreads] at hpre
  exact (cstring_begins _).trans hpre

/-- The code that is found in what was read. -/
theorem code_cpinState_said (hreads : reads.flatten = r.bytes) :
    (cpinState (said reads)).code = r.found (said reads).length := by
  have hsaid := List.prefix_iff_eq_take.mp (said_begins hreads)
  rw [code_cpinState, CpinReply.found]
  refine List.find?_congr fun code hcode => decide_eq_decide.mpr ?_
  rw [← infix_take_bytes hcode, ← hsaid]

/-- The state after a reply. -/
theorem sim_simGetState (hfd : 0 ≤ t.modemFd) (hi : simSlot slot = some i) :
    (simGetState t slot ⟨true, reads⟩).2.sim i =
      if ascii "OK" <:+: said reads then cpinState (said reads) else .absent := by
  simp only [simGetState, hi, Handset.send, Telephonyd.send, modemSendAt_said hfd]
  by_cases hok : ascii "OK" <:+: said reads
  · simp [hok, Handset.setState, Handset.setInfo]
  · simp [hok, Handset.setState]

/-- The gate of `sim_get_info` and `sim_switch`. -/
theorem ready_of_simGetInfo {reply₁ reply₂ reply₃ reply₄ : Reply}
    (h : (simGetInfo t slot reply₁ reply₂ reply₃ reply₄).1 = 0) :
    ∃ i, simSlot slot = some i ∧ t.sim i = .ready := by
  simp only [simGetInfo] at h
  split at h
  · cases h
  · rename_i i hi
    split at h
    · cases h
    · rename_i hready
      exact ⟨i, hi, not_not.mp hready⟩

theorem ready_of_simSwitch (h : (simSwitch t slot).1 = 0) :
    ∃ i, simSlot slot = some i ∧ t.sim i = .ready := by
  simp only [simSwitch] at h
  split at h
  · cases h
  · rename_i i hi
    split at h
    · cases h
    · rename_i hready
      exact ⟨i, hi, not_not.mp hready⟩

/-- What is known of the state passes the gates. -/
theorem sound_of_state
    (h : ∀ i code, simSlot slot = some i → (t.sim i).code = some code → r.code = code) :
    r.Sound slot t where
  state := h
  getInfo := fun _ _ _ _ hret => by
    obtain ⟨i, hi, hready⟩ := ready_of_simGetInfo hret
    exact h i _ hi (by rw [hready]; rfl)
  switch := fun hret => by
    obtain ⟨i, hi, hready⟩ := ready_of_simSwitch hret
    exact h i _ hi (by rw [hready]; rfl)

end

/-- **The state of a slot is that of its card** exactly when the reply is not taken for an answer, or the
first code that is found in one of its lines is the card's. -/
theorem simGetState_sound_iff (r : CpinReply) (t : Handset) (hfd : 0 ≤ t.modemFd) (slot : Int32)
    (reads : List (List UInt8)) (hreads : reads.flatten = r.bytes) :
    r.Sound slot (simGetState t slot ⟨true, reads⟩).2 ↔
      (simSlot slot ≠ none → ascii "OK" <:+: said reads →
        ∀ code, r.found (said reads).length = some code → r.code = code) := by
  constructor
  · intro hsound hslot hok code hcode
    obtain ⟨i, hi⟩ := Option.ne_none_iff_exists'.mp hslot
    refine hsound.state i code hi ?_
    rw [sim_simGetState hfd hi, if_pos hok, code_cpinState_said hreads, hcode]
  · intro h
    refine sound_of_state fun i code hi hcode => ?_
    rw [sim_simGetState hfd hi] at hcode
    split at hcode
    · rename_i hok
      exact h (hi ▸ Option.some_ne_none i) hok code (by rw [← code_cpinState_said hreads, hcode])
    · cases hcode

/-- A reply of the status line alone. -/
def cpinReply (code : List UInt8) (h : newline ∉ code ∧ 13 ∉ code) : CpinReply :=
  ⟨[], code, [], LineStart.nil, h, LineStart.nil⟩

/-- A phone with a modem and two cards nobody has looked at. -/
def openHandset : Handset where
  toPhone := { openPhone with sim := fun _ => .absent }
  info := fun _ => ⟨.cut (by decide) [], .cut CStr.pos_16 [], .cut CStr.pos_64 [],
    .cut (by decide) [], .cut (by decide) [], .cut CStr.pos_32 [], 0⟩
  activeSim := 0

/-- A card that is blocked. -/
theorem simGetState_sound_puk : (cpinReply (ascii "SIM PUK") (by decide)).Sound 0
    (simGetState openHandset 0 ⟨true, [(cpinReply (ascii "SIM PUK") (by decide)).bytes]⟩).2 :=
  (simGetState_sound_iff (cpinReply (ascii "SIM PUK") (by decide)) openHandset (by decide) 0 _
    (List.append_nil _)).mpr fun _ _ code hcode => by
      have hfound : (cpinReply (ascii "SIM PUK") (by decide)).found
          (said [(cpinReply (ascii "SIM PUK") (by decide)).bytes]).length = some (ascii "SIM PUK") := by
        decide +kernel
      exact Option.some.inj (hfound.symm.trans hcode)

/-- A card that is not ready is taken for one that is, and switched to. -/
theorem notReady_is_ready :
    ¬ ∀ (r : CpinReply) (t : Handset) (slot : Int32) (reads : List (List UInt8)), 0 ≤ t.modemFd →
      reads.flatten = r.bytes → r.Sound slot (simGetState t slot ⟨true, reads⟩).2 := by
  intro h
  have hsound := h (cpinReply (ascii "NOT READY") (by decide)) openHandset 0
    [(cpinReply (ascii "NOT READY") (by decide)).bytes] (by decide) (List.append_nil _)
  exact absurd (hsound.switch (by decide +kernel)) (by decide)

end LumiOS.Telephony
