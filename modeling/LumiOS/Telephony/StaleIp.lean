import LumiOS.Telephony.Calls

/-!
# Telephony — StaleIp

The address a connection leaves in `data.ip`.

`data_connect` copies it from between quotes in the answer to `AT+CGPADDR=1`, and writes nothing where
there are none: the address of an earlier connection stays.  So two states with other addresses end with
the one of the answer exactly when the answer has it, or there was none before (`dataConnect_ip_iff`).
-/

namespace LumiOS.Telephony

open Support

/-- The same telephonyd with another address left over. -/
def Telephonyd.withIp (t : Telephonyd) (ip : CStr 16) : Telephonyd :=
  { t with data := { t.data with ip := ip } }

/-- `data_connect` goes on to activate a context, and the modem takes the commands. -/
structure Activates (t : Telephonyd) (reply₁ reply₂ : Reply) : Prop where
  airplaneMode : t.airplaneMode = false
  inactive : t.data.active = false
  defined : Accepts t reply₁
  activated : Accepts t reply₂

/-- What stands behind the first quote behind the name, in an answer to `AT+CGPADDR=1`. -/
def quoted (t : Telephonyd) (reply : Reply) : Option (List UInt8) :=
  if (modemSendAt t.modemFd reply).1 = 0 then
    (strstr (ascii "+CGPADDR:") (modemSendAt t.modemFd reply).2).bind fun p =>
      (breakAt 34 p).map Prod.snd
  else none

/-- The address an answer carries: the text in these quotes, which are closed; nothing without them. -/
def carriedIp (t : Telephonyd) (reply : Reply) : List UInt8 :=
  (((quoted t reply).bind (breakAt 34)).map Prod.fst).getD []

/-- Both states end with the address of the answer. -/
def IpFresh (t : Telephonyd) (ip ip' : CStr 16) (apn : List UInt8) (reply₁ reply₂ reply₃ : Reply) : Prop :=
  (dataConnect (t.withIp ip) apn reply₁ reply₂ reply₃).2.data.ip =
      (dataConnect (t.withIp ip') apn reply₁ reply₂ reply₃).2.data.ip ∧
    (dataConnect (t.withIp ip) apn reply₁ reply₂ reply₃).2.data.ip.bytes = carriedIp t reply₃

section

variable {t : Telephonyd} {reply reply₁ reply₂ reply₃ : Reply} {quote : List UInt8}

/-- What the function makes of the address there was. -/
theorem dataConnect_ip (h : Activates t reply₁ reply₂) (ip : CStr 16) (apn : List UInt8) (reply₃ : Reply) :
    (dataConnect (t.withIp ip) apn reply₁ reply₂ reply₃).2.data.ip =
      ((quoted t reply₃).map fun quote => CStr.cut CStr.pos_16 (quote.takeWhile (· ≠ 34))).getD ip := by
  have h₁ : (modemSendAt t.modemFd reply₁).1 = 0 := h.defined
  have h₂ : (modemSendAt t.modemFd reply₂).1 = 0 := h.activated
  simp only [dataConnect, Telephonyd.withIp, h.airplaneMode, h.inactive, Telephonyd.send, h₁, h₂, lt_irrefl,
    Bool.false_eq_true, if_false, quoted, assignedIp]
  split
  · cases strstr (ascii "+CGPADDR:") (modemSendAt t.modemFd reply₃).2 with
    | none => rfl
    | some p =>
        cases hp : breakAt 34 p with
        | none => simp [hp]
        | some q => simp [hp]
  · rfl

theorem nul_not_mem_modemSendAt (modemFd : Int) (reply : Reply) : 0 ∉ (modemSendAt modemFd reply).2 := by
  simp only [modemSendAt]
  repeat' split
  all_goals first | exact List.not_mem_nil | exact nul_not_mem_cstring _

theorem nul_not_mem_quoted (h : quoted t reply = some quote) : 0 ∉ quote := by
  rw [quoted] at h
  split at h
  · obtain ⟨p, hp, hq⟩ := Option.bind_eq_some_iff.mp h
    obtain ⟨⟨upTo, rest⟩, hbreak, rfl⟩ := Option.map_eq_some_iff.mp hq
    intro h0
    refine nul_not_mem_modemSendAt t.modemFd reply ((suffix_of_strstr hp).subset ?_)
    rw [(eq_of_breakAt hbreak).1]
    exact List.mem_append_right _ (List.mem_cons_of_mem _ h0)
  · cases h

/-- What is copied of the address is all of it, and is closed by a quote. -/
theorem cut_eq_carried_iff (h0 : 0 ∉ quote) :
    (CStr.cut CStr.pos_16 (quote.takeWhile (· ≠ 34))).bytes =
        ((breakAt 34 quote).map Prod.fst).getD [] ↔
      quote = [] ∨ 34 ∈ quote ∧ (quote.takeWhile (· ≠ 34)).length ≤ 15 := by
  have hbytes : (CStr.cut CStr.pos_16 (quote.takeWhile (· ≠ 34))).bytes =
      (quote.takeWhile (· ≠ 34)).take 15 :=
    congrArg (List.take 15) (cstring_of_not_mem fun h => h0 ((List.takeWhile_prefix _).subset h))
  rw [hbytes, breakAt]
  by_cases hclosed : 34 ∈ quote
  · rw [if_pos hclosed, Option.map_some, Option.getD_some, List.take_eq_self_iff, and_iff_right hclosed,
      or_iff_right (List.ne_nil_of_mem hclosed)]
  · have hall : quote.takeWhile (· ≠ 34) = quote := List.takeWhile_eq_self_iff.mpr fun c hc => by
      simpa using ne_of_mem_of_not_mem hc hclosed
    rw [if_neg hclosed, hall, Option.map_none, Option.getD_none, List.take_eq_nil_iff]
    simp [hclosed]

end

/-- **The address is that of this connection** exactly when the answer has it in quotes that are closed, and
it fits; or the quote is the last character; or there is no quote, and no address before in either state. -/
theorem dataConnect_ip_iff (t : Telephonyd) (ip ip' : CStr 16) (apn : List UInt8)
    (reply₁ reply₂ reply₃ : Reply) (h : Activates t reply₁ reply₂) :
    IpFresh t ip ip' apn reply₁ reply₂ reply₃ ↔
      match quoted t reply₃ with
      | none => ip.bytes = [] ∧ ip'.bytes = []
      | some quote => quote = [] ∨ 34 ∈ quote ∧ (quote.takeWhile (· ≠ 34)).length ≤ 15 := by
  rw [IpFresh, dataConnect_ip h, dataConnect_ip h, carriedIp]
  cases hquoted : quoted t reply₃ with
  | none =>
      show ip = ip' ∧ ip.bytes = [] ↔ _
      constructor
      · rintro ⟨rfl, hip⟩
        exact ⟨hip, hip⟩
      · rintro ⟨hip, hip'⟩
        exact ⟨(CStr.eq_cut_nil CStr.pos_16 hip).trans (CStr.eq_cut_nil CStr.pos_16 hip').symm, hip⟩
  | some quote => exact (and_iff_right rfl).trans (cut_eq_carried_iff (nul_not_mem_quoted hquoted))

/-- A modem that reports an address. -/
def addressReply : Reply := ⟨true, [ascii "\r\n+CGPADDR: 1,\"10.0.0.7\"\r\nOK\r\n"]⟩

theorem idle_activates : Activates idle .ok .ok := by
  have hok : Accepts idle .ok := show (modemSendAt idle.modemFd .ok).1 = 0 by decide +kernel
  exact ⟨rfl, rfl, hok, hok⟩

/-- The address of an earlier connection. -/
def oldIp : CStr 16 := .lit "10.0.0.1" (by decide)

theorem dataConnect_ip_reported :
    IpFresh idle oldIp (.cut CStr.pos_16 []) (ascii "internet") .ok .ok addressReply := by
  refine (dataConnect_ip_iff idle oldIp _ (ascii "internet") .ok .ok addressReply idle_activates).mpr ?_
  have hquoted : quoted idle addressReply = some (ascii "10.0.0.7\"\r\nOK\r\n") := by decide +kernel
  rw [hquoted]
  exact .inr (by decide +kernel)

/-- An answer without an address leaves the old one. -/
theorem dataConnect_keeps_ip :
    ¬ ∀ (t : Telephonyd) (ip ip' : CStr 16) (apn : List UInt8) (reply₁ reply₂ reply₃ : Reply),
      Activates t reply₁ reply₂ → IpFresh t ip ip' apn reply₁ reply₂ reply₃ := by
  intro h
  have hfresh := (h idle oldIp (.cut CStr.pos_16 []) (ascii "internet") .ok .ok .ok idle_activates).1
  exact absurd hfresh (by decide +kernel)

end LumiOS.Telephony
