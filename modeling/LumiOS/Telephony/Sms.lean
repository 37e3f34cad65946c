import LumiOS.Telephony.Airplane

/-!
# Telephony — Sms

`sms_read_incoming`, with `modem_send_at` for the larger array it reads into.

The reply is taken apart in place.  The NUL stored behind the sender ends the text for the search that
follows, and the line end in front of the message is not found: no message has a body
(`smsReadIncoming_iff`).
-/

namespace LumiOS.Telephony

open Support

/-! ### modem_send_at -/

/-- The loop of `modem_send_at`, into a `char resp[size]`. -/
def readInto (size : Nat) : Nat → List UInt8 → List (List UInt8) → List UInt8
  | 0, resp, _ => resp
  | _ + 1, resp, [] => resp
  | retries + 1, resp, chunk :: reads =>
    if resp.length < size - 1 then
      let chunk := chunk.take (size - resp.length - 1)
      if chunk ≠ [] ∧ isFinal (resp ++ chunk) then resp ++ chunk
      else readInto size retries (resp ++ chunk) reads
    else resp

/-- `modem_send_at`, with the string it leaves in a `char resp[size]`. -/
def modemSendAtInto (size : Nat) (modemFd : Int) (reply : Reply) : Int × List UInt8 :=
  if modemFd < 0 then (-1, [])
  else if reply.written = false then (-1, [])
  else
    let resp := readInto size 20 [] reply.reads
    if resp = [] then (-1, [])
    else (if (strstr (ascii "OK") (cstring resp)).isSome then 0 else -1, cstring resp)

theorem readInto_respSize : readInto respSize = readLoop := by
  funext retries resp reads
  induction retries generalizing resp reads with
  | zero => rfl
  | succ retries ih =>
      cases reads with
      | nil => rfl
      | cons chunk reads => simp only [readInto, readLoop, ih]

/-- With the array of the other callers it is the function they call. -/
theorem modemSendAtInto_respSize : modemSendAtInto respSize = modemSendAt := by
  funext modemFd reply
  simp only [modemSendAtInto, modemSendAt, readInto_respSize]

/-! ### sms.c -/

structure SmsPdu where
  sender : CStr 32
  recipient : CStr 32
  body : CStr 512
  timestamp : UInt64
  pduType : Int32
deriving DecidableEq, Repr

/-- After `memset`. -/
def SmsPdu.zero : SmsPdu :=
  ⟨.cut CStr.pos_32 [], .cut CStr.pos_32 [], .cut (by decide) [], 0, 0⟩

def crlf : List UInt8 := ascii "\r\n"

/-- The sender, between the third and the fourth quote, and what stands at `p` with the NUL that ends
it. -/
def takeSender (p : List UInt8) : Option (List UInt8) × List UInt8 :=
  match breakAt 34 p with
  | none => (none, p)
  | some (upTo, quote) =>
    match breakAt 34 quote with
    | none => (none, p)
    | some (status, next) =>
      match breakAt 34 next with
      | none => (none, p)
      | some (between, quote) =>
        match breakAt 34 quote with
        | none => (none, p)
        | some (sender, behind) =>
          (some sender,
            upTo ++ 34 :: (status ++ 34 :: (between ++ 34 :: (sender ++ 0 :: behind))))

/-- The line behind the first line end of the string at `p`. -/
def takeBody (p : List UInt8) : Option (List UInt8) :=
  (strstr crlf (cstring p)).map fun s =>
    let body := s.drop 2
    match strstr crlf body with
    | some rest => body.take (body.length - rest.length)
    | none => body

def smsReadIncoming (t : Telephonyd) (pdu : Option SmsPdu) (now : UInt64) (reply : Reply) :
    Int × Option SmsPdu × Telephonyd :=
  match pdu with
  | none => (-1, none, t)
  | some pdu =>
    let (ret, resp) := modemSendAtInto 1024 t.modemFd reply
    let t := { t with sent := (ascii "AT+CMGL=\"REC UNREAD\"", ret) :: t.sent }
    if ret < 0 then (-1, some pdu, t)
    else
      match strstr (ascii "+CMGL:") resp with
      | none => (-1, some pdu, t)
      | some p =>
        let pdu := { SmsPdu.zero with timestamp := now, pduType := 0 }
        let (sender, p) := takeSender p
        let pdu := { pdu with sender := (sender.map (CStr.cut CStr.pos_32)).getD pdu.sender }
        let pdu := { pdu with body := ((takeBody p).map (CStr.cut (by decide))).getD pdu.body }
        (0, some pdu, t)

/-! ### Replies -/

/-- The parts of a reply to `AT+CMGL`. -/
structure CmglParts where
  index : List UInt8
  status : List UInt8
  sender : List UInt8
  rest : List UInt8
  body : List UInt8
  tail : List UInt8

namespace CmglParts

/-- The reply up to the end of the sender. -/
def opening (r : CmglParts) : List UInt8 :=
  ascii "+CMGL: " ++ r.index ++ ascii ",\"" ++ r.status ++ ascii "\",\"" ++ r.sender

def bytes (r : CmglParts) : List UInt8 :=
  r.opening ++ ascii "\"" ++ r.rest ++ crlf ++ r.body ++ crlf ++ r.tail

end CmglParts

/-- A reply with one unread message in front. -/
structure CmglReply extends CmglParts where
  index_ok : 34 ∉ index ∧ 13 ∉ index ∧ 10 ∉ index
  status_ok : 34 ∉ status ∧ 13 ∉ status ∧ 10 ∉ status
  sender_ok : 34 ∉ sender ∧ 13 ∉ sender ∧ 10 ∉ sender
  body_ok : ¬ crlf <:+: body
  says_ok : ascii "OK" <:+: tail
  length_lt : toCmglParts.bytes.length < 1024

/-- The message has arrived: its sender and its body, each as far as there is room. -/
def CmglReply.Received (r : CmglReply) (result : Int × Option SmsPdu × Telephonyd) : Prop :=
  result.1 = 0 ∧ ∃ pdu, result.2.1 = some pdu ∧
    pdu.sender = .cut CStr.pos_32 r.sender ∧ pdu.body = .cut (by decide) r.body

/-- The text a reply in pieces leaves in `resp`. -/
def heard (reads : List (List UInt8)) : List UInt8 := cstring (readInto 1024 20 [] reads)

/-- The reply was read up to the quote behind the sender, so that the sender is taken. -/
def CmglReply.SenderRead (r : CmglReply) (s : List UInt8) : Prop := r.opening ++ [34] <+: s

section

variable {r : CmglReply} {s p x mem resp : List UInt8} {reads : List (List UInt8)} {size retries : Nat}

/-! ### What is read -/

/-- Nothing is read into a full array. -/
theorem readInto_full (h : size - 1 ≤ resp.length) : readInto size retries resp reads = resp := by
  cases retries with
  | zero => rfl
  | succ retries =>
      cases reads with
      | nil => rfl
      | cons chunk reads => rw [readInto, if_neg (Nat.not_lt.mpr h)]

/-- What is read of a reply is a beginning of it. -/
theorem readInto_begins (size retries : Nat) (resp : List UInt8) (reads : List (List UInt8)) :
    readInto size retries resp reads <+: resp ++ reads.flatten := by
  induction retries generalizing resp reads with
  | zero => exact List.prefix_append _ _
  | succ retries ih =>
      cases reads with
      | nil => exact List.prefix_append _ _
      | cons chunk reads =>
          rw [List.flatten_cons, ← List.append_assoc]
          have hchunk : resp ++ chunk.take (size - resp.length - 1) <+: resp ++ chunk ++ reads.flatten := by
            rw [List.append_assoc, List.prefix_append_right_inj]
            exact (List.take_prefix _ _).trans (List.prefix_append _ _)
          simp only [readInto]
          split
          · split
            · exact hchunk
            · rcases Nat.le_total chunk.length (size - resp.length - 1) with hle | hle
              · rw [List.take_of_length_le hle]
                exact ih _ _
              · -- the array is full
                rw [readInto_full (by rw [List.length_append, List.length_take]; omega)]
                exact hchunk
          · rw [List.append_assoc]
            exact List.prefix_append _ _

/-- What was heard of a reply is a beginning of it, and ends before any NUL. -/
theorem heard_begins (hreads : reads.flatten = r.bytes) : heard reads <+: r.bytes := by
  have hpre := readInto_begins 1024 20 [] reads
  rw [List.nil_append, hreads] at hpre
  exact (cstring_begins _).trans hpre

/-! ### The header -/

/-- Three quotes and no line end stand before the end of the sender. -/
theorem count_opening (r : CmglReply) : r.opening.count 34 = 3 := by
  have hindex : r.index.count 34 = 0 := List.count_eq_zero.mpr r.index_ok.1
  have hstatus : r.status.count 34 = 0 := List.count_eq_zero.mpr r.status_ok.1
  have hsender : r.sender.count 34 = 0 := List.count_eq_zero.mpr r.sender_ok.1
  simp only [CmglParts.opening, List.count_append, hindex, hstatus, hsender]
  rfl

theorem cr_not_mem_opening (r : CmglReply) : 13 ∉ r.opening := by
  simp only [CmglParts.opening, List.mem_append, not_or]
  exact ⟨⟨⟨⟨⟨by decide, r.index_ok.2.1⟩, by decide⟩, r.status_ok.2.1⟩, by decide⟩, r.sender_ok.2.1⟩

theorem takeBody_of_no_cr (h : 13 ∉ cstring p) : takeBody p = none := by
  have hnone : strstr crlf (cstring p) = none :=
    strstr_eq_none.mpr fun hin => h (hin.subset List.mem_cons_self)
  rw [takeBody, hnone]
  rfl

theorem takeSender_none (h : (takeSender p).1 = none) : (takeSender p).2 = p := by
  simp only [takeSender] at h ⊢
  repeat' split at h
  all_goals first | rfl | cases h

/-- The sender is taken from between four quotes. -/
theorem takeSender_count (h : (takeSender p).1 = some x) : 4 ≤ p.count 34 := by
  simp only [takeSender] at h
  split at h
  · cases h
  next upTo quote h₁ =>
    split at h
    · cases h
    next status next h₂ =>
      split at h
      · cases h
      next between quote h₃ =>
        split at h
        · cases h
        next sender behind h₄ =>
          rw [(eq_of_breakAt h₁).1, (eq_of_breakAt h₂).1, (eq_of_breakAt h₃).1, (eq_of_breakAt h₄).1]
          simp only [List.count_append, List.count_cons_self]
          omega

/-- The sender of a header that was read whole, and the header without the quote that ends it. -/
theorem takeSender_opening (r : CmglReply) (x : List UInt8) :
    takeSender (r.opening ++ 34 :: x) = (some r.sender, r.opening ++ 0 :: x) := by
  have hupTo : 34 ∉ ascii "+CMGL: " ++ r.index ++ ascii "," := by
    simp only [List.mem_append, not_or]
    exact ⟨⟨by decide, r.index_ok.1⟩, by decide⟩
  have h₁ := breakAt_append (r.status ++ 34 :: (ascii "," ++ 34 :: (r.sender ++ 34 :: x))) hupTo
  have h₂ := breakAt_append (ascii "," ++ 34 :: (r.sender ++ 34 :: x)) r.status_ok.1
  have h₃ := breakAt_append (r.sender ++ 34 :: x) (show (34 : UInt8) ∉ ascii "," by decide)
  have h₄ := breakAt_append x r.sender_ok.1
  have hsplit (c : UInt8) : r.opening ++ c :: x = ascii "+CMGL: " ++ r.index ++ ascii "," ++
      34 :: (r.status ++ 34 :: (ascii "," ++ 34 :: (r.sender ++ c :: x))) := by
    simp [CmglParts.opening, ascii]
  rw [hsplit, hsplit, takeSender, h₁]
  simp only [h₂, h₃, h₄]

theorem opening_begins (r : CmglReply) : r.opening ++ [34] <+: r.bytes := by
  refine ⟨r.rest ++ crlf ++ r.body ++ crlf ++ r.tail, ?_⟩
  simp [CmglParts.bytes, ascii]

/-- A reply that was read far enough to be taken for an answer begins with the marker of a message. -/
theorem marker_begins (hs : s <+: r.bytes) (hok : ascii "OK" <:+: s) : ascii "+CMGL:" <+: s := by
  have hmark : ascii "+CMGL:" <+: r.bytes := by
    refine ⟨ascii " " ++ r.index ++ ascii ",\"" ++ r.status ++ ascii "\",\"" ++ r.sender ++ ascii "\"" ++
      r.rest ++ crlf ++ r.body ++ crlf ++ r.tail, ?_⟩
    simp [CmglParts.bytes, CmglParts.opening, ascii]
  rcases List.prefix_or_prefix_of_prefix hmark hs with h | h
  · exact h
  · exact absurd (hok.trans h.isInfix) (by decide)

/-- The NUL behind a sender that was read hides the line end. -/
theorem taken_of_read (hread : r.SenderRead s) (hnul : 0 ∉ s) :
    (takeSender s).1 = some r.sender ∧ takeBody (takeSender s).2 = none := by
  obtain ⟨x, rfl⟩ := hread
  rw [List.append_assoc] at hnul ⊢
  rw [List.singleton_append, takeSender_opening]
  refine ⟨rfl, takeBody_of_no_cr ?_⟩
  rw [cstring_append_nul fun h => hnul (List.mem_append_left _ h)]
  exact cr_not_mem_opening r

/-- Where the reading ended in front of the quote behind the sender, there is no line end at all. -/
theorem taken_of_not_read (hs : s <+: r.bytes) (hread : ¬ r.SenderRead s) :
    (takeSender s).1 = none ∧ takeBody (takeSender s).2 = none := by
  have hin : s <+: r.opening := by
    rcases List.prefix_or_prefix_of_prefix (opening_begins r) hs with h | h
    · exact absurd h hread
    · rcases List.prefix_concat_iff.mp h with rfl | h
      · exact absurd (List.prefix_refl _) hread
      · exact h
  have hnone : (takeSender s).1 = none := by
    cases hx : (takeSender s).1 with
    | none => rfl
    | some x =>
        have hcount := takeSender_count hx
        have hle := hin.sublist.count_le 34
        rw [count_opening] at hle
        omega
  refine ⟨hnone, ?_⟩
  rw [takeSender_none hnone]
  exact takeBody_of_no_cr fun h => cr_not_mem_opening r (hin.subset ((cstring_begins s).subset h))

/-- An array of zeroes stays as it is where an empty string is copied. -/
theorem cut_nil_iff {cap : Nat} (h : 0 < cap) (hcap : 1 < cap) :
    CStr.cut h [] = CStr.cut h x ↔ cstring x = [] := by
  refine ⟨fun heq => ?_, fun hx => (CStr.eq_cut_nil h ?_).symm⟩
  · have hbytes : (cstring x).take (cap - 1) = [] :=
      (congrArg CStr.bytes heq).symm.trans List.take_nil
    rcases List.take_eq_nil_iff.mp hbytes with h0 | h0
    · omega
    · exact h0
  · change (cstring x).take (cap - 1) = []
    rw [hx, List.take_nil]

/-- An answer that holds no `OK` is no message. -/
theorem not_received_of_not_ok (t : Telephonyd) (hfd : 0 ≤ t.modemFd) (pdu : SmsPdu) (now : UInt64)
    (hok : ¬ ascii "OK" <:+: heard reads) :
    (smsReadIncoming t (some pdu) now ⟨true, reads⟩).1 = -1 := by
  have hsend : (modemSendAtInto 1024 t.modemFd ⟨true, reads⟩).1 = -1 := by
    simp only [modemSendAtInto, if_neg (Int.not_lt.mpr hfd), Bool.true_eq_false, if_false]
    split
    · rfl
    · rw [← heard, if_neg fun h => hok (strstr_isSome.mp h)]
  simp only [smsReadIncoming, hsend]
  rw [if_pos (by decide)]

/-- A message without a body, and with the sender that was found, is what comes of an answer. -/
theorem received_iff_of_ok (t : Telephonyd) (hfd : 0 ≤ t.modemFd) (pdu : SmsPdu) (now : UInt64)
    (hs : heard reads <+: r.bytes) (hok : ascii "OK" <:+: heard reads)
    (hbody : takeBody (takeSender (heard reads)).2 = none) :
    r.Received (smsReadIncoming t (some pdu) now ⟨true, reads⟩) ↔
      ((takeSender (heard reads)).1.map (CStr.cut CStr.pos_32)).getD (CStr.cut CStr.pos_32 []) =
        CStr.cut CStr.pos_32 r.sender ∧ cstring r.body = [] := by
  have hne : readInto 1024 20 [] reads ≠ [] := fun h => by
    rw [heard, h] at hok
    exact absurd hok (by decide)
  have hsend : modemSendAtInto 1024 t.modemFd ⟨true, reads⟩ = (0, heard reads) := by
    rw [modemSendAtInto, if_neg (Int.not_lt.mpr hfd), if_neg Bool.true_eq_false.mp, if_neg hne,
      ← heard, if_pos (strstr_isSome.mpr hok)]
  have hmark := strstr_of_prefix (marker_begins hs hok)
  simp only [smsReadIncoming, hsend, hmark, hbody, CmglReply.Received, SmsPdu.zero, Int.lt_irrefl,
    if_false, true_and, Option.some.injEq, exists_eq_left', Option.map_none, Option.getD_none]
  rw [cut_nil_iff _ (by decide)]

/-- **A message arrives** only if its body is empty: what was heard says `OK`, and the sender was read or
is empty too. -/
theorem smsReadIncoming_iff (r : CmglReply) (t : Telephonyd) (hfd : 0 ≤ t.modemFd) (pdu : SmsPdu)
    (now : UInt64) (reads : List (List UInt8)) (hreads : reads.flatten = r.bytes) :
    r.Received (smsReadIncoming t (some pdu) now ⟨true, reads⟩) ↔
      ascii "OK" <:+: heard reads ∧ cstring r.body = [] ∧
        (r.SenderRead (heard reads) ∨ cstring r.sender = []) := by
  have hs := heard_begins hreads
  by_cases hok : ascii "OK" <:+: heard reads
  · by_cases hread : r.SenderRead (heard reads)
    · obtain ⟨hsender, hbody⟩ := taken_of_read hread (nul_not_mem_cstring _)
      rw [received_iff_of_ok t hfd pdu now hs hok hbody, hsender]
      simp [hok, hread]
    · obtain ⟨hsender, hbody⟩ := taken_of_not_read hs hread
      rw [received_iff_of_ok t hfd pdu now hs hok hbody, hsender, Option.map_none, Option.getD_none,
        cut_nil_iff _ (by decide)]
      simp only [hok, hread, true_and, false_or, and_comm]
  · refine iff_of_false (fun h => ?_) fun h => hok h.1
    have hret := not_received_of_not_ok t hfd pdu now hok
    rw [h.1] at hret
    cases hret

end

/-- A reply with a message of a given body. -/
def partsWith (body : List UInt8) : CmglParts where
  index := ascii "1"
  status := ascii "REC UNREAD"
  sender := ascii "+15551234"
  rest := ascii ",,\"26/01/01,12:00:00+00\""
  body := body
  tail := ascii "\r\nOK\r\n"

def replyWith (body : List UInt8) (hbody : ¬ crlf <:+: body)
    (hlen : (partsWith body).bytes.length < 1024) : CmglReply where
  toCmglParts := partsWith body
  index_ok := by simp only [partsWith]; decide +kernel
  status_ok := by simp only [partsWith]; decide +kernel
  sender_ok := by simp only [partsWith]; decide +kernel
  body_ok := hbody
  says_ok := show ascii "OK" <:+: ascii "\r\nOK\r\n" by decide +kernel
  length_lt := hlen

/-- Without a body it arrives. -/
theorem smsReadIncoming_empty :
    (replyWith [] (by decide +kernel) (by decide +kernel)).Received
      (smsReadIncoming { Telephonyd.zero with modemFd := 3 } (some .zero) 0
        ⟨true, [(partsWith []).bytes]⟩) :=
  (smsReadIncoming_iff (replyWith [] (by decide +kernel) (by decide +kernel)) _ (by decide +kernel) .zero 0
    [(partsWith []).bytes] (by decide +kernel)).mpr
    ⟨by decide +kernel, by decide +kernel,
      .inl (show (partsWith []).opening ++ [34] <+: heard [(partsWith []).bytes] by decide +kernel)⟩

/-- A message that says `Hi` arrives without it. -/
theorem smsReadIncoming_loses_body :
    ¬ ∀ (r : CmglReply) (t : Telephonyd) (pdu : SmsPdu) (now : UInt64) (reads : List (List UInt8)),
      0 ≤ t.modemFd → reads.flatten = r.bytes →
        r.Received (smsReadIncoming t (some pdu) now ⟨true, reads⟩) := by
  intro h
  have hlost : ((smsReadIncoming { Telephonyd.zero with modemFd := 3 } (some .zero) 0
      ⟨true, [(partsWith (ascii "Hi")).bytes]⟩).2.1.map fun pdu => pdu.body.bytes) = some [] := by
    decide +kernel
  obtain ⟨-, pdu, hpdu, -, hbody⟩ := h (replyWith (ascii "Hi") (by decide +kernel) (by decide +kernel))
    { Telephonyd.zero with modemFd := 3 } .zero 0 [(partsWith (ascii "Hi")).bytes] (by decide)
    (by decide +kernel)
  rw [hpdu, Option.map_some, hbody] at hlost
  exact absurd hlost (by decide +kernel)

end LumiOS.Telephony
