import MyTeams.Client.Stream

/-!
# Malformed payloads

A payload that is shorter than its code calls for, or a list that announces more records than it
has. Each of the readers of `_handle_response` gives a default when its field is not there, and
stays where it is, so a narrower field behind it may fit after all, and is read from the bytes of
the one that did not. The loops over a list make one call for each record that the count announces,
there or not. `handleResponse_sound_iff` says for every code on which payloads that happens.
-/

namespace MyTeams

open ByteOrder ByteField ByteReader

/-! ### Sound calls

Each argument of a call that comes from the payload is right for the field at its own place: `pos`
is the position of the record, and the offsets are those of the layout. -/

section Layouts

variable (p : List UInt8) (pos : ℕ)

/-- A text of `n` bytes. -/
def TextAt (n : ℕ) (s : Str) : Prop := FieldAt n [] cut p pos s

/-- A status byte. -/
def ByteAt (b : UInt8) : Prop := FieldAt 1 0 (fun l ↦ l.headD 0) p pos b

/-- A timestamp. -/
def TimeAt (t : Int64) : Prop := FieldAt 8 0 i64OfBytes p pos t

/-- A uuid and a name. -/
def AccountAt (f : Str → Str → Callback) (call : Callback) : Prop :=
  ∃ uuid name, call = f uuid name ∧ TextAt p pos 36 uuid ∧ TextAt p (pos + 36) 32 name

/-- A uuid, a name and a status byte. -/
def StatusAt (f : Str → Str → Int → Callback) (call : Callback) : Prop :=
  ∃ uuid name, ∃ status : UInt8, call = f uuid name status.toNat ∧ TextAt p pos 36 uuid ∧
    TextAt p (pos + 36) 32 name ∧ ByteAt p (pos + 68) status

/-- A uuid, a name and a description. -/
def DescribedAt (f : Str → Str → Str → Callback) (call : Callback) : Prop :=
  ∃ uuid name desc, call = f uuid name desc ∧ TextAt p pos 36 uuid ∧
    TextAt p (pos + 36) 32 name ∧ TextAt p (pos + 68) 255 desc

/-- Two uuids, a timestamp, a title and a body. -/
def ThreadAt (f : Str → Str → Int64 → Str → Str → Callback) (call : Callback) : Prop :=
  ∃ tuuid cuuid ts title body, call = f tuuid cuuid ts title body ∧ TextAt p pos 36 tuuid ∧
    TextAt p (pos + 36) 36 cuuid ∧ TimeAt p (pos + 72) ts ∧ TextAt p (pos + 80) 32 title ∧
    TextAt p (pos + 112) 512 body

/-- Two uuids, a timestamp and a body. -/
def ReplyAt (f : Str → Str → Int64 → Str → Callback) (call : Callback) : Prop :=
  ∃ tuuid cuuid ts body, call = f tuuid cuuid ts body ∧ TextAt p pos 36 tuuid ∧
    TextAt p (pos + 36) 36 cuuid ∧ TimeAt p (pos + 72) ts ∧ TextAt p (pos + 80) 512 body

/-- A single uuid. -/
def UuidAt (f : Str → Callback) (call : Callback) : Prop :=
  ∃ uuid, call = f uuid ∧ TextAt p pos 36 uuid

/-- A uuid and a body. -/
def ReceivedAt (f : Str → Str → Callback) (call : Callback) : Prop :=
  ∃ sender body, call = f sender body ∧ TextAt p pos 36 sender ∧ TextAt p (pos + 36) 512 body

end Layouts

/-- The one call of a code with a fixed layout. -/
def OneCall (record : ℕ → Callback → Prop) (calls : List Callback) : Prop :=
  ∃ call, calls = [call] ∧ record 0 call

/-- The calls of a list: no more than there are whole records behind the count, each of which says
what the record at its place says. -/
def ListCalls (size : ℕ) (record : ℕ → Callback → Prop) (p : List UInt8) (calls : List Callback) :
    Prop :=
  calls.length ≤ (p.length - 4) / size ∧
    ∀ i call, calls[i]? = some call → record (4 + i * size) call

/-- **Sound calls** for a code: what they take from the payload is right for the fields at their own
places. The codes without fields are always sound. -/
def SoundCalls (c : Client) (p : List UInt8) : ServerCode → List Callback → Prop
  | .res .loginOk | .evt .userLoggedIn => OneCall fun pos ↦ AccountAt p pos .eventLoggedIn
  | .res .logoutOk | .evt .userLoggedOut => OneCall fun pos ↦ AccountAt p pos .eventLoggedOut
  | .res .subscribeOk => OneCall fun pos ↦ UuidAt p pos (.printSubscribed c.userUuid)
  | .res .unsubscribeOk => OneCall fun pos ↦ UuidAt p pos (.printUnsubscribed c.userUuid)
  | .res .userInfo => OneCall fun pos ↦ StatusAt p pos .printUser
  | .res .userDetails =>
    OneCall fun pos ↦ AccountAt p pos fun uuid name ↦ .printUser uuid name (-1)
  | .res .teamInfo => OneCall fun pos ↦ DescribedAt p pos .printTeam
  | .res .teamCreated => OneCall fun pos ↦ DescribedAt p pos .printTeamCreated
  | .res .channelInfo => OneCall fun pos ↦ DescribedAt p pos .printChannel
  | .res .channelCreated => OneCall fun pos ↦ DescribedAt p pos .printChannelCreated
  | .res .threadInfo => OneCall fun pos ↦ ThreadAt p pos .printThread
  | .res .threadCreated => OneCall fun pos ↦ ThreadAt p pos .printThreadCreated
  | .res .replyCreated => OneCall fun pos ↦ ReplyAt p pos .printReplyCreated
  | .res .usersList | .res .subscribedUsers =>
    ListCalls (36 + 32 + 1) (fun pos ↦ StatusAt p pos .printUsers) p
  | .res .listTeams | .res .subscribedTeams =>
    ListCalls (36 + 32 + 255) (fun pos ↦ DescribedAt p pos .printTeams) p
  | .res .listChannels =>
    ListCalls (36 + 32 + 255) (fun pos ↦ DescribedAt p pos .teamPrintChannels) p
  | .res .listThreads =>
    ListCalls (36 + 36 + 8 + 32 + 512) (fun pos ↦ ThreadAt p pos .channelPrintThreads) p
  | .res .listReplies =>
    ListCalls (36 + 36 + 8 + 512) (fun pos ↦ ReplyAt p pos .threadPrintReplies) p
  | .res .messagesList =>
    ListCalls (36 + 36 + 8 + 512)
      (fun pos ↦ ReplyAt p pos fun sender _ ts body ↦ .privateMessagePrintMessages sender ts body) p
  | .err .unknownTeam => OneCall fun pos ↦ UuidAt p pos .errorUnknownTeam
  | .err .unknownChannel => OneCall fun pos ↦ UuidAt p pos .errorUnknownChannel
  | .err .unknownThread => OneCall fun pos ↦ UuidAt p pos .errorUnknownThread
  | .err .unknownUser => OneCall fun pos ↦ UuidAt p pos .errorUnknownUser
  | .evt .messageReceived => OneCall fun pos ↦ ReceivedAt p pos .eventPrivateMessageReceived
  | .evt .teamCreated => OneCall fun pos ↦ DescribedAt p pos .eventTeamCreated
  | .evt .channelCreated => OneCall fun pos ↦ DescribedAt p pos .eventChannelCreated
  | .evt .threadCreated => OneCall fun pos ↦ ThreadAt p pos .eventThreadCreated
  | .evt .replyCreated =>
    OneCall fun pos ↦ ReplyAt p pos fun tuuid cuuid _ body ↦
      .eventThreadReplyReceived (cut c.useTeamUuid) tuuid cuuid body
  | .res .sendOk | .err .unauthorized | .err .notSubscribed | .err .alreadyExists
  | .err .invalidCommand => fun _ ↦ True

/-! ### The payloads that are misread -/

/-- There is no uuid, and the bytes that are there pass for a name. -/
def StrayName (p : List UInt8) : Prop := 32 ≤ p.length ∧ p.length < 36 ∧ p.headD 0 ≠ 0

/-- The bytes of a uuid pass for a name and a status, or those of a name for a status. -/
def StrayStatus (p : List UInt8) : Prop :=
  p.length < 36 ∧ (p.headD 0 ≠ 0 ∨ (p.drop 32).headD 0 ≠ 0) ∨
    36 ≤ p.length ∧ p.length < 68 ∧ (p.drop 36).headD 0 ≠ 0

/-- The bytes of one of the two uuids pass for a timestamp. -/
def StrayTime (p : List UInt8) : Prop :=
  8 ≤ p.length ∧ p.length < 36 ∧ p.take 8 ≠ be64 0 ∨
    44 ≤ p.length ∧ p.length < 72 ∧ (p.drop 36).take 8 ≠ be64 0

/-- The count announces more records than there are. -/
def Overcount (size : ℕ) (p : List UInt8) : Prop :=
  4 ≤ p.length ∧ p.length < 4 + (ofBe32 (p.take 4)).toNat * size

/-- **The condition** for each code. Where the timestamp is not passed on, or no field is narrower
than one before it, no payload is misread. -/
def Misread (p : List UInt8) : ServerCode → Prop
  | .res .loginOk | .res .logoutOk | .res .userDetails | .evt .userLoggedIn | .evt .userLoggedOut
  | .res .teamInfo | .res .teamCreated | .res .channelInfo | .res .channelCreated
  | .evt .teamCreated | .evt .channelCreated => StrayName p
  | .res .userInfo => StrayStatus p
  | .res .threadInfo | .res .threadCreated | .res .replyCreated | .evt .threadCreated => StrayTime p
  | .res .usersList | .res .subscribedUsers => Overcount (36 + 32 + 1) p
  | .res .listTeams | .res .subscribedTeams | .res .listChannels => Overcount (36 + 32 + 255) p
  | .res .listThreads => Overcount (36 + 36 + 8 + 32 + 512) p
  | .res .listReplies | .res .messagesList => Overcount (36 + 36 + 8 + 512) p
  | _ => False

/-! ### Fields where the reader stopped -/

section Stray

variable {p : List UInt8} {off : ℕ} {short : Bool}

theorem cut_eq_nil_iff {l : List UInt8} : cut l = [] ↔ l.headD 0 = 0 := by
  cases l with
  | nil => exact iff_of_true rfl rfl
  | cons b l => simp [cut, List.takeWhile_cons]

/-- A text is read wherever there are enough bytes. -/
theorem readFixed_eq_nil_iff {n : ℕ} (hn : 0 < n) :
    (readFixed n p ⟨off, short⟩).1 = [] ↔
      ¬ (off + n ≤ p.length ∧ (p.drop off).headD 0 ≠ 0) := by
  have hhead (l : List UInt8) : (l.take n).headD 0 = l.headD 0 := by
    rw [List.headD_eq_head?_getD, List.head?_take, if_neg hn.ne', List.headD_eq_head?_getD]
  rw [readFixed]
  rcases Nat.lt_or_ge p.length (off + n) with h | h
  · rw [readField_of_lt h]
    exact iff_of_true rfl fun hfits ↦ absurd hfits.1 (Nat.not_le.2 h)
  · rw [readField_of_le h, cut_eq_nil_iff, hhead, and_iff_right h, not_not]

/-- A text longer than the buffer is not read. -/
theorem readFixed_of_lt {n : ℕ} (h : p.length < n) (c : Cursor) : (readFixed n p c).1 = [] :=
  congrArg Prod.fst (readField_of_lt (h.trans_le (Nat.le_add_left n c.off)))

/-- A status byte is read wherever there is a byte. -/
theorem readU8_eq_zero_iff : (readU8 p ⟨off, short⟩).1 = 0 ↔ (p.drop off).headD 0 = 0 := by
  rw [readU8]
  rcases Nat.lt_or_ge p.length (off + 1) with h | h
  · rw [readField_of_lt h, List.drop_of_length_le (Nat.le_of_lt_succ h)]
    exact Iff.rfl
  · rw [readField_of_le h]
    rcases p.drop off with - | ⟨b, l⟩ <;> exact Iff.rfl

/-- Only eight zero bytes spell the number zero. -/
theorem i64OfBytes_eq_zero_iff {l : List UInt8} (h : l.length = 8) :
    i64OfBytes l = 0 ↔ l = be64 0 := by
  have hbytes : be64 (UInt64.ofNat (beNat l)).toInt64 = l := by
    have hlt : beNat l < 2 ^ 64 := by simpa [h] using beNat_lt l
    have hround := beBytes_beNat l
    rw [h] at hround
    show beBytes 8 (UInt64.ofNat (beNat l)).toNat = l
    rw [UInt64.toNat_ofNat_of_lt' hlt, hround]
  constructor
  · intro hzero
    have hvalue := i64OfBytes_be64 (UInt64.ofNat (beNat l)).toInt64
    rw [hbytes, hzero] at hvalue
    rw [← hbytes, ← hvalue]
  · rintro rfl
    exact i64OfBytes_be64 0

/-- A timestamp is read wherever there are eight bytes. -/
theorem readI64_eq_zero_iff : (readI64 p ⟨off, short⟩).1 = 0 ↔
    ¬ (off + 8 ≤ p.length ∧ (p.drop off).take 8 ≠ be64 0) := by
  rw [readI64]
  rcases Nat.lt_or_ge p.length (off + 8) with h | h
  · rw [readField_of_lt h]
    exact iff_of_true rfl fun hfits ↦ absurd hfits.1 (Nat.not_le.2 h)
  · have hlength : ((p.drop off).take 8).length = 8 := by
      rw [List.length_take, List.length_drop]
      omega
    rw [readField_of_le h, i64OfBytes_eq_zero_iff hlength, and_iff_right h, not_not]

/-- It leaves too few bytes for a title or a body. -/
theorem readFixed_readI64 {n : ℕ} (hn : 32 ≤ n) (h : p.length < off + 36) :
    (readFixed n p (readI64 p ⟨off, short⟩).2).1 = [] := by
  rw [readI64, readFixed]
  rcases Nat.lt_or_ge p.length (off + 8) with h8 | h8
  · rw [readField_of_lt h8, readField_of_lt (by omega)]
  · rw [readField_of_le h8, readField_of_lt (by omega)]

end Stray

/-! ### The layouts -/

section Runs

variable {p : List UInt8} {c : Cursor} {r₁ r₂ : Str × Cursor}

theorem readAccount_eq {f : Str → Str → Callback} (h₁ : readFixed 36 p c = r₁)
    (h₂ : readFixed 32 p r₁.2 = r₂) : readAccount f p c = (f r₁.1 r₂.1, r₂.2) := by
  subst h₁ h₂
  rfl

theorem readStatus_eq {f : Str → Str → Int → Callback} {r₃ : UInt8 × Cursor}
    (h₁ : readFixed 36 p c = r₁) (h₂ : readFixed 32 p r₁.2 = r₂) (h₃ : readU8 p r₂.2 = r₃) :
    readStatus f p c = (f r₁.1 r₂.1 r₃.1.toNat, r₃.2) := by
  subst h₁ h₂ h₃
  rfl

theorem readDescribed_eq {f : Str → Str → Str → Callback} {r₃ : Str × Cursor}
    (h₁ : readFixed 36 p c = r₁) (h₂ : readFixed 32 p r₁.2 = r₂) (h₃ : readFixed 255 p r₂.2 = r₃) :
    readDescribed f p c = (f r₁.1 r₂.1 r₃.1, r₃.2) := by
  subst h₁ h₂ h₃
  rfl

theorem readThread_eq {f : Str → Str → Int64 → Str → Str → Callback} {r₃ : Int64 × Cursor}
    {r₄ r₅ : Str × Cursor} (h₁ : readFixed 36 p c = r₁) (h₂ : readFixed 36 p r₁.2 = r₂)
    (h₃ : readI64 p r₂.2 = r₃) (h₄ : readFixed 32 p r₃.2 = r₄) (h₅ : readFixed 512 p r₄.2 = r₅) :
    readThread f p c = (f r₁.1 r₂.1 r₃.1 r₄.1 r₅.1, r₅.2) := by
  subst h₁ h₂ h₃ h₄ h₅
  rfl

theorem readReply_eq {f : Str → Str → Int64 → Str → Callback} {r₃ : Int64 × Cursor}
    {r₄ : Str × Cursor} (h₁ : readFixed 36 p c = r₁) (h₂ : readFixed 36 p r₁.2 = r₂)
    (h₃ : readI64 p r₂.2 = r₃) (h₄ : readFixed 512 p r₃.2 = r₄) :
    readReply f p c = (f r₁.1 r₂.1 r₃.1 r₄.1, r₄.2) := by
  subst h₁ h₂ h₃ h₄
  rfl

end Runs

section Fixed

variable {p : List UInt8}

/-- A code with a fixed layout makes one call. -/
theorem oneCall_iff {R : ℕ → Callback → Prop} {r : Reader Callback} :
    OneCall R ((List.singleton <$> r).read p).1 ↔ R 0 (r.read p).1 := by
  constructor
  · rintro ⟨call, hcall, h⟩
    obtain rfl : (r.read p).1 = call := List.singleton_inj.1 hcall
    exact h
  · exact fun h ↦ ⟨_, rfl, h⟩

/-- The uuid of a payload that has one. -/
theorem readFixed_uuid (h : 36 ≤ p.length) :
    readFixed 36 p Cursor.start = (cut (p.take 36), ⟨36, false⟩) := by
  have hread : readFixed 36 p ⟨0, false⟩ = (cut ((p.drop 0).take 36), ⟨0 + 36, false⟩) :=
    readField_of_le (by omega)
  rwa [List.drop_zero, Nat.zero_add] at hread

/-- There is no uuid, and the reader stays at the start. -/
theorem readFixed_no_uuid (h : p.length < 36) : readFixed 36 p Cursor.start = ([], ⟨0, true⟩) :=
  readField_of_lt (by omega)

theorem textAt_uuid (h : 36 ≤ p.length) : TextAt p 0 36 (cut (p.take 36)) := by
  have hread := fieldAt_readField 36 [] cut p Cursor.start
  rwa [show readField 36 [] cut p Cursor.start = _ from readFixed_uuid h] at hread

theorem uuid_sound (f : Str → Callback) : UuidAt p 0 f ((readUuid f).read p).1 :=
  ⟨_, rfl, fieldAt_readField 36 [] cut p Cursor.start⟩

/-- A text longer than a uuid is never read from the bytes of one. -/
theorem textAt_behind_uuid {n : ℕ} (hn : 36 ≤ n) :
    TextAt p 0 36 (readFixed 36 p Cursor.start).1 ∧
      TextAt p 36 n (readFixed n p (readFixed 36 p Cursor.start).2).1 := by
  refine ⟨fieldAt_readField 36 [] cut p Cursor.start, ?_⟩
  rcases Nat.lt_or_ge p.length 36 with h | h
  · exact .inl (readFixed_of_lt (by omega) _)
  · rw [readFixed_uuid h]
    exact fieldAt_readField n [] cut p ⟨36, false⟩

/-- An account is read right unless there is no uuid, and a name instead. -/
theorem account_iff {f : Str → Str → Callback} (hf : ∀ {u n u' n'}, f u n = f u' n' → n = n') :
    AccountAt p 0 f ((readAccount f).read p).1 ↔ ¬ StrayName p := by
  rcases Nat.lt_or_ge p.length 36 with h | h
  · have hread := readAccount_eq (f := f) (readFixed_no_uuid h) rfl
    have hname : (readFixed 32 p ⟨0, true⟩).1 = [] ↔
        ¬ (0 + 32 ≤ p.length ∧ (p.drop 0).headD 0 ≠ 0) := readFixed_eq_nil_iff (by decide)
    have hstray : StrayName p ↔ 0 + 32 ≤ p.length ∧ (p.drop 0).headD 0 ≠ 0 := by
      rw [StrayName, and_iff_right h]
      exact Iff.rfl
    rw [Reader.read, hread, hstray, ← hname]
    constructor
    · rintro ⟨u, n, heq, -, hn⟩
      rw [hf heq]
      exact (fieldAt_iff_of_lt (by omega)).1 hn
    · exact fun hnil ↦ ⟨_, _, rfl, .inl rfl, .inl hnil⟩
  · have hread := readAccount_eq (f := f) (readFixed_uuid h) rfl
    rw [Reader.read, hread]
    exact iff_of_true ⟨_, _, rfl, textAt_uuid h, fieldAt_readField 32 [] cut p ⟨36, false⟩⟩
      fun hstray ↦ absurd hstray.2.1 (Nat.not_lt.2 h)

/-- A description does not fit where a uuid or a name is cut off. -/
theorem described_iff {f : Str → Str → Str → Callback}
    (hf : ∀ {u n d u' n' d'}, f u n d = f u' n' d' → n = n') :
    DescribedAt p 0 f ((readDescribed f).read p).1 ↔ ¬ StrayName p := by
  -- The description is right in any case, and the rest is an account.
  obtain ⟨r₁, hr₁⟩ : ∃ r₁, readFixed 36 p Cursor.start = r₁ := ⟨_, rfl⟩
  obtain ⟨r₂, hr₂⟩ : ∃ r₂, readFixed 32 p r₁.2 = r₂ := ⟨_, rfl⟩
  have hdesc : TextAt p 68 255 (readFixed 255 p r₂.2).1 := by
    rcases Nat.lt_or_ge p.length 68 with h | h
    · exact .inl (readFixed_of_lt (by omega) _)
    · rw [readFixed_uuid (by omega)] at hr₁
      subst hr₁
      rw [readFixed, readField_of_le (by omega)] at hr₂
      subst hr₂
      exact fieldAt_readField 255 [] cut p ⟨68, false⟩
  have haccount := account_iff (p := p) (f := fun u n ↦ f u n (readFixed 255 p r₂.2).1)
    fun heq ↦ hf heq
  rw [Reader.read, readAccount_eq hr₁ hr₂] at haccount
  rw [Reader.read, readDescribed_eq hr₁ hr₂ rfl, ← haccount]
  constructor
  · rintro ⟨u, n, d, heq, hu, hn, -⟩
    rw [← hf heq] at hn
    exact ⟨_, _, rfl, hr₁ ▸ fieldAt_readField 36 [] cut p Cursor.start, hn⟩
  · rintro ⟨u, n, heq, hu, hn⟩
    rw [← hf heq] at hn
    exact ⟨_, _, _, rfl, hr₁ ▸ fieldAt_readField 36 [] cut p Cursor.start, hn, hdesc⟩

/-- A status byte fits in any field that is cut off. -/
theorem status_iff {f : Str → Str → Int → Callback}
    (hf : ∀ {u n s u' n' s'}, f u n s = f u' n' s' → n = n' ∧ s = s') :
    StatusAt p 0 f ((readStatus f).read p).1 ↔ ¬ StrayStatus p := by
  have hstatus {s s' : UInt8} (h : (s.toNat : Int) = s'.toNat) : s = s' :=
    UInt8.toNat_inj.1 (Int.ofNat_inj.1 h)
  rcases Nat.lt_or_ge p.length 36 with h | h
  · -- neither name nor status have a place, so both must be the default
    obtain ⟨n, c, hn⟩ : ∃ n c, readFixed 32 p ⟨0, true⟩ = (n, c) := ⟨_, _, rfl⟩
    have hread := readStatus_eq (f := f) (readFixed_no_uuid h) hn rfl
    have hsound : StatusAt p 0 f (f [] n (readU8 p c).1.toNat) ↔ n = [] ∧ (readU8 p c).1 = 0 := by
      constructor
      · rintro ⟨u, n', s, heq, -, hn', hs⟩
        obtain ⟨rfl, hs'⟩ := hf heq
        rw [hstatus hs']
        exact ⟨(fieldAt_iff_of_lt (by omega)).1 hn', (fieldAt_iff_of_lt (by omega)).1 hs⟩
      · exact fun ⟨hn, hs⟩ ↦ ⟨_, _, _, rfl, .inl rfl, .inl hn, .inl hs⟩
    have hstray : StrayStatus p ↔ p.headD 0 ≠ 0 ∨ (p.drop 32).headD 0 ≠ 0 := by
      rw [StrayStatus, and_iff_right h, or_iff_left fun h' ↦ absurd h'.1 (Nat.not_le.2 h)]
    rw [Reader.read, hread, hsound, hstray]
    rcases Nat.lt_or_ge p.length 32 with h32 | h32
    · rw [readFixed, readField_of_lt (by omega)] at hn
      obtain ⟨rfl, rfl⟩ := Prod.mk.inj hn
      rw [and_iff_right rfl, readU8_eq_zero_iff, List.drop_of_length_le h32.le]
      simp
    · have hname : (readFixed 32 p ⟨0, true⟩).1 = [] ↔
          ¬ (0 + 32 ≤ p.length ∧ (p.drop 0).headD 0 ≠ 0) := readFixed_eq_nil_iff (by decide)
      rw [hn, and_iff_right (by omega)] at hname
      rw [readFixed, readField_of_le (by omega)] at hn
      obtain ⟨-, rfl⟩ := Prod.mk.inj hn
      rw [hname, readU8_eq_zero_iff, not_or, not_not]
      simp
  have hread := readStatus_eq (f := f) (readFixed_uuid h) rfl rfl
  rw [Reader.read, hread]
  rcases Nat.lt_or_ge p.length 68 with h' | h'
  · -- the name is cut off, and the status is read from its first byte
    have hname : readFixed 32 p ⟨36, false⟩ = ([], ⟨36, true⟩) := readField_of_lt (by omega)
    have hstray : StrayStatus p ↔ (p.drop 36).headD 0 ≠ 0 := by
      rw [StrayStatus, or_iff_right fun h' ↦ absurd h'.1 (Nat.not_lt.2 h), and_iff_right h,
        and_iff_right h']
    have hzero : (readU8 p ⟨36, true⟩).1 = 0 ↔ (p.drop 36).headD 0 = 0 := readU8_eq_zero_iff
    rw [hname, hstray, not_not, ← hzero]
    constructor
    · rintro ⟨u, n, s, heq, -, -, hs⟩
      rw [hstatus (hf heq).2]
      exact (fieldAt_iff_of_lt (by omega)).1 hs
    · exact fun hs ↦ ⟨_, _, _, rfl, textAt_uuid h, .inl rfl, .inl hs⟩
  · have hname : readFixed 32 p ⟨36, false⟩ = (cut ((p.drop 36).take 32), ⟨68, false⟩) :=
      readField_of_le (by omega)
    refine iff_of_true ⟨_, _, _, rfl, textAt_uuid h, ?_, ?_⟩ fun hstray ↦ ?_
    · exact fieldAt_readField 32 [] cut p ⟨36, false⟩
    · rw [hname]
      exact fieldAt_readField 1 0 (fun l ↦ l.headD 0) p ⟨68, false⟩
    · rcases hstray with ⟨hlt, -⟩ | ⟨-, hlt, -⟩ <;> omega

/-- Where the reader is after two uuids: at the first that is cut off. -/
structure AfterUuids (p : List UInt8) (c : Cursor) : Prop where
  none : p.length < 36 → c = ⟨0, true⟩
  one : 36 ≤ p.length → p.length < 72 → c = ⟨36, true⟩
  both : 72 ≤ p.length → c = ⟨72, false⟩

theorem afterUuids : AfterUuids p (readFixed 36 p (readFixed 36 p Cursor.start).2).2 where
  none h := by rw [readFixed_no_uuid h, readFixed, readField_of_lt (by omega)]
  one h h' := by rw [readFixed_uuid h, readFixed, readField_of_lt (by omega)]
  both h := by rw [readFixed_uuid (by omega), readFixed, readField_of_le (by omega)]

/-- A timestamp fits in a uuid that is cut off. -/
theorem AfterUuids.timeAt_iff {c : Cursor} (hc : AfterUuids p c) :
    TimeAt p 72 (readI64 p c).1 ↔ ¬ StrayTime p := by
  rcases Nat.lt_or_ge p.length 36 with h | h
  · have hstray : StrayTime p ↔ 0 + 8 ≤ p.length ∧ (p.drop 0).take 8 ≠ be64 0 := by
      rw [StrayTime, or_iff_left fun h' ↦ absurd h'.1 (by omega), and_iff_right h]
      exact Iff.rfl
    rw [hc.none h, TimeAt, fieldAt_iff_of_lt (by omega), readI64_eq_zero_iff, hstray]
  rcases Nat.lt_or_ge p.length 72 with h' | h'
  · have hstray : StrayTime p ↔ 36 + 8 ≤ p.length ∧ (p.drop 36).take 8 ≠ be64 0 := by
      rw [StrayTime, or_iff_right fun h' ↦ absurd h'.2.1 (Nat.not_lt.2 h), and_iff_right h']
    rw [hc.one h h', TimeAt, fieldAt_iff_of_lt (by omega), readI64_eq_zero_iff, hstray]
  · rw [hc.both h']
    refine iff_of_true (fieldAt_readField 8 0 i64OfBytes p ⟨72, false⟩) fun hstray ↦ ?_
    rcases hstray with ⟨-, hlt, -⟩ | ⟨-, hlt, -⟩ <;> omega

/-- What comes behind the timestamp is longer than what may be left of a uuid. -/
theorem AfterUuids.textAt {c : Cursor} (hc : AfterUuids p c) {n : ℕ} (hn : 32 ≤ n) :
    TextAt p 80 n (readFixed n p (readI64 p c).2).1 := by
  rcases Nat.lt_or_ge p.length 36 with h | h
  · rw [hc.none h]
    exact .inl (readFixed_readI64 hn (by omega))
  rcases Nat.lt_or_ge p.length 72 with h' | h'
  · rw [hc.one h h']
    exact .inl (readFixed_readI64 hn (by omega))
  rw [hc.both h']
  rcases Nat.lt_or_ge p.length 80 with h80 | h80
  · exact .inl (readFixed_readI64 hn (by omega))
  · rw [readI64, readField_of_le (by omega)]
    exact fieldAt_readField n [] cut p ⟨80, false⟩

/-- And a body is longer than what may be left of a title. -/
theorem AfterUuids.bodyAt {c : Cursor} (hc : AfterUuids p c) :
    TextAt p 112 512 (readFixed 512 p (readFixed 32 p (readI64 p c).2).2).1 := by
  rcases Nat.lt_or_ge p.length 512 with h | h
  · exact .inl (readFixed_of_lt h _)
  · rw [hc.both (by omega), readI64, readField_of_le (by omega)]
    show TextAt p 112 512 (readField 512 [] cut p (readField 32 [] cut p ⟨80, false⟩).2).1
    rw [readField_of_le (show 80 + 32 ≤ p.length by omega)]
    exact fieldAt_readField 512 [] cut p ⟨112, false⟩

theorem thread_iff {f : Str → Str → Int64 → Str → Str → Callback}
    (hf : ∀ {t u s n b t' u' s' n' b'}, f t u s n b = f t' u' s' n' b' → s = s') :
    ThreadAt p 0 f ((readThread f).read p).1 ↔ ¬ StrayTime p := by
  obtain ⟨ht, hu⟩ := textAt_behind_uuid (p := p) le_rfl
  rw [Reader.read, readThread_eq rfl rfl rfl rfl rfl, ← afterUuids.timeAt_iff]
  constructor
  · rintro ⟨t, u, s, n, b, heq, -, -, hs, -⟩
    rw [hf heq]
    exact hs
  · exact fun hs ↦ ⟨_, _, _, _, _, rfl, ht, hu, hs, afterUuids.textAt le_rfl, afterUuids.bodyAt⟩

theorem reply_iff {f : Str → Str → Int64 → Str → Callback}
    (hf : ∀ {t u s b t' u' s' b'}, f t u s b = f t' u' s' b' → s = s') :
    ReplyAt p 0 f ((readReply f).read p).1 ↔ ¬ StrayTime p := by
  obtain ⟨ht, hu⟩ := textAt_behind_uuid (p := p) le_rfl
  rw [Reader.read, readReply_eq rfl rfl rfl rfl, ← afterUuids.timeAt_iff]
  constructor
  · rintro ⟨t, u, s, b, heq, -, -, hs, -⟩
    rw [hf heq]
    exact hs
  · exact fun hs ↦ ⟨_, _, _, _, rfl, ht, hu, hs, afterUuids.textAt (by decide)⟩

/-- A timestamp that is not passed on does no harm. -/
theorem reply_sound {g : Str → Str → Str → Callback} :
    ReplyAt p 0 (fun t u _ b ↦ g t u b) ((readReply fun t u _ b ↦ g t u b).read p).1 := by
  obtain ⟨ht, hu⟩ := textAt_behind_uuid (p := p) le_rfl
  rw [Reader.read, readReply_eq rfl rfl rfl rfl]
  exact ⟨_, _, 0, _, rfl, ht, hu, .inl rfl, afterUuids.textAt (by decide)⟩

end Fixed

/-! ### Lists -/

section Lists

variable {p : List UInt8}

/-- A list makes as many calls as the count says, so they are sound if there are as many records. -/
theorem list_iff {size : ℕ} (hsize : 0 < size) {R : ℕ → Callback → Prop} {record : Reader Callback}
    (h : ∀ off short, off + size ≤ p.length →
      ∃ call, record p ⟨off, short⟩ = (call, ⟨off + size, short⟩) ∧ R off call) :
    ListCalls size R p ((readList record).read p).1 ↔ ¬ Overcount size p := by
  rcases Nat.lt_or_ge p.length 4 with h4 | h4
  · have hcalls : ((readList record).read p).1 = [] := by
      show (readTimes record (readU32 p Cursor.start).1.toNat p (readU32 p Cursor.start).2).1 = []
      rw [readU32, show readField 4 0 ofBe32 p Cursor.start = _ from readField_of_lt (by omega)]
      rfl
    rw [hcalls]
    refine iff_of_true ⟨Nat.zero_le _, fun i call hi ↦ ?_⟩ fun hover ↦ ?_
    · rw [List.getElem?_nil] at hi
      cases hi
    · exact absurd hover.1 (Nat.not_le.2 h4)
  · have hcalls : ((readList record).read p).1 =
        (readTimes record (ofBe32 (p.take 4)).toNat p ⟨4, false⟩).1 := by
      show (readTimes record (readU32 p Cursor.start).1.toNat p (readU32 p Cursor.start).2).1 = _
      rw [readU32, show readField 4 0 ofBe32 p Cursor.start = _ from readField_of_le (by omega)]
      rfl
    have hover : ¬ Overcount size p ↔ 4 + (ofBe32 (p.take 4)).toNat * size ≤ p.length := by
      rw [Overcount, and_iff_right h4, Nat.not_lt]
    rw [hcalls, hover]
    constructor
    · intro hsound
      have hcount := hsound.1
      rw [length_readTimes, Nat.le_div_iff_mul_le hsize] at hcount
      omega
    · intro hfits
      obtain ⟨calls, hread, hall⟩ := readTimes_of_le h hfits
      refine ⟨?_, ?_⟩
      · rw [length_readTimes, Nat.le_div_iff_mul_le hsize]
        omega
      · rw [hread]
        exact hall

variable {off : ℕ} {short : Bool}

theorem readStatus_of_le (f : Str → Str → Int → Callback) (h : off + (36 + 32 + 1) ≤ p.length) :
    ∃ call, readStatus f p ⟨off, short⟩ = (call, ⟨off + (36 + 32 + 1), short⟩) ∧
      StatusAt p off f call :=
  ⟨_, readStatus_eq (readField_of_le (by omega)) (readField_of_le (by omega))
    (readField_of_le (by omega)), _, _, _, rfl, .inr ⟨by omega, rfl⟩, .inr ⟨by omega, rfl⟩,
    .inr ⟨by omega, rfl⟩⟩

theorem readDescribed_of_le (f : Str → Str → Str → Callback)
    (h : off + (36 + 32 + 255) ≤ p.length) :
    ∃ call, readDescribed f p ⟨off, short⟩ = (call, ⟨off + (36 + 32 + 255), short⟩) ∧
      DescribedAt p off f call :=
  ⟨_, readDescribed_eq (readField_of_le (by omega)) (readField_of_le (by omega))
    (readField_of_le (by omega)), _, _, _, rfl, .inr ⟨by omega, rfl⟩, .inr ⟨by omega, rfl⟩,
    .inr ⟨by omega, rfl⟩⟩

theorem readThread_of_le (f : Str → Str → Int64 → Str → Str → Callback)
    (h : off + (36 + 36 + 8 + 32 + 512) ≤ p.length) :
    ∃ call, readThread f p ⟨off, short⟩ = (call, ⟨off + (36 + 36 + 8 + 32 + 512), short⟩) ∧
      ThreadAt p off f call :=
  ⟨_, readThread_eq (readField_of_le (by omega)) (readField_of_le (by omega))
    (readField_of_le (by omega)) (readField_of_le (by omega)) (readField_of_le (by omega)), _, _, _,
    _, _, rfl, .inr ⟨by omega, rfl⟩, .inr ⟨by omega, rfl⟩, .inr ⟨by omega, rfl⟩,
    .inr ⟨by omega, rfl⟩, .inr ⟨by omega, rfl⟩⟩

theorem readReply_of_le (f : Str → Str → Int64 → Str → Callback)
    (h : off + (36 + 36 + 8 + 512) ≤ p.length) :
    ∃ call, readReply f p ⟨off, short⟩ = (call, ⟨off + (36 + 36 + 8 + 512), short⟩) ∧
      ReplyAt p off f call :=
  ⟨_, readReply_eq (readField_of_le (by omega)) (readField_of_le (by omega))
    (readField_of_le (by omega)) (readField_of_le (by omega)), _, _, _, _, rfl,
    .inr ⟨by omega, rfl⟩, .inr ⟨by omega, rfl⟩, .inr ⟨by omega, rfl⟩, .inr ⟨by omega, rfl⟩⟩

end Lists

/-! ### The law -/

/-- **When the calls for a code are sound**, code by code. -/
theorem soundCalls_iff (c : Client) (p : List UInt8) (k : ServerCode) :
    SoundCalls c p k ((responseCalls c k).read p).1 ↔ ¬ Misread p k := by
  have haccount {f : Str → Str → Callback} (hf : ∀ {u n u' n'}, f u n = f u' n' → n = n') :
      OneCall (fun pos ↦ AccountAt p pos f) ((List.singleton <$> readAccount f).read p).1 ↔
        ¬ StrayName p :=
    oneCall_iff.trans (account_iff hf)
  have hdescribed {f : Str → Str → Str → Callback}
      (hf : ∀ {u n d u' n' d'}, f u n d = f u' n' d' → n = n') :
      OneCall (fun pos ↦ DescribedAt p pos f) ((List.singleton <$> readDescribed f).read p).1 ↔
        ¬ StrayName p :=
    oneCall_iff.trans (described_iff hf)
  have hthread {f : Str → Str → Int64 → Str → Str → Callback}
      (hf : ∀ {t u s n b t' u' s' n' b'}, f t u s n b = f t' u' s' n' b' → s = s') :
      OneCall (fun pos ↦ ThreadAt p pos f) ((List.singleton <$> readThread f).read p).1 ↔
        ¬ StrayTime p :=
    oneCall_iff.trans (thread_iff hf)
  have huuid (f : Str → Callback) :
      OneCall (fun pos ↦ UuidAt p pos f) ((List.singleton <$> readUuid f).read p).1 ↔ ¬ False :=
    iff_of_true (oneCall_iff.2 (uuid_sound f)) not_false
  have hstatuses (f : Str → Str → Int → Callback) :=
    list_iff (p := p) (show 0 < 36 + 32 + 1 by decide) fun _ _ h ↦ readStatus_of_le f h
  have hdescriptions (f : Str → Str → Str → Callback) :=
    list_iff (p := p) (show 0 < 36 + 32 + 255 by decide) fun _ _ h ↦ readDescribed_of_le f h
  have hthreads (f : Str → Str → Int64 → Str → Str → Callback) :=
    list_iff (p := p) (show 0 < 36 + 36 + 8 + 32 + 512 by decide) fun _ _ h ↦
      readThread_of_le f h
  have hreplies (f : Str → Str → Int64 → Str → Callback) :=
    list_iff (p := p) (show 0 < 36 + 36 + 8 + 512 by decide) fun _ _ h ↦ readReply_of_le f h
  have hnone : True ↔ ¬ False := iff_of_true trivial not_false
  cases k with
  | res r =>
    cases r with
    | loginOk => exact haccount fun h ↦ by injection h
    | logoutOk => exact haccount fun h ↦ by injection h
    | userDetails => exact haccount fun h ↦ by injection h
    | userInfo =>
      have hiff := status_iff (p := p) (f := .printUser) fun h ↦ by
        injection h with _ hn hs
        exact ⟨hn, hs⟩
      exact (oneCall_iff (R := fun pos ↦ StatusAt p pos .printUser)).trans hiff
    | teamInfo => exact hdescribed fun h ↦ by injection h
    | teamCreated => exact hdescribed fun h ↦ by injection h
    | channelInfo => exact hdescribed fun h ↦ by injection h
    | channelCreated => exact hdescribed fun h ↦ by injection h
    | threadInfo => exact hthread fun h ↦ by injection h
    | threadCreated => exact hthread fun h ↦ by injection h
    | replyCreated =>
      have hiff := reply_iff (p := p) (f := .printReplyCreated) fun h ↦ by injection h
      exact (oneCall_iff (R := fun pos ↦ ReplyAt p pos .printReplyCreated)).trans hiff
    | usersList => exact hstatuses .printUsers
    | subscribedUsers => exact hstatuses .printUsers
    | listTeams => exact hdescriptions .printTeams
    | subscribedTeams => exact hdescriptions .printTeams
    | listChannels => exact hdescriptions .teamPrintChannels
    | listThreads => exact hthreads .channelPrintThreads
    | listReplies => exact hreplies .threadPrintReplies
    | messagesList => exact hreplies _
    | subscribeOk => exact huuid _
    | unsubscribeOk => exact huuid _
    | sendOk => exact hnone
  | err e =>
    cases e with
    | unknownTeam => exact huuid _
    | unknownChannel => exact huuid _
    | unknownThread => exact huuid _
    | unknownUser => exact huuid _
    | _ => exact hnone
  | evt e =>
    cases e with
    | userLoggedIn => exact haccount fun h ↦ by injection h
    | userLoggedOut => exact haccount fun h ↦ by injection h
    | teamCreated => exact hdescribed fun h ↦ by injection h
    | channelCreated => exact hdescribed fun h ↦ by injection h
    | threadCreated => exact hthread fun h ↦ by injection h
    | replyCreated =>
      have hsound := reply_sound (p := p) (g := .eventThreadReplyReceived (cut c.useTeamUuid))
      exact iff_of_true ⟨_, rfl, hsound⟩ not_false
    | messageReceived =>
      obtain ⟨hsender, hbody⟩ := textAt_behind_uuid (p := p) (n := 512) (by decide)
      exact iff_of_true ⟨_, rfl, _, _, rfl, hsender, hbody⟩ not_false

/-- **The decoder on malformed payloads.** For every code and every payload, the calls that
`_handle_response` makes are sound exactly when the payload is not one that the code misreads. -/
theorem handleResponse_sound_iff (c : Client) (k : ServerCode) (p : List UInt8) :
    ∃ calls : List Callback,
      (c.handleResponse k.code p).history = c.history ++ .handled k.code p :: calls.map .called ∧
        (SoundCalls c p k calls ↔ ¬ Misread p k) := by
  refine ⟨((responseCalls c k).read p).1, ?_, soundCalls_iff c p k⟩
  obtain ⟨running, uuid, heq⟩ := Client.applyResponse_eq k ((responseCalls c k).read p).1
    (c.record (.handled k.code p))
  rw [Client.handleResponse, ServerCode.ofCode?_code]
  show (((responseCalls c k).read p).1.foldl (fun c call ↦ c.call call) ((c.record
    (.handled k.code p)).applyResponse k ((responseCalls c k).read p).1)).history = _
  rw [foldl_call, heq]
  simp [Client.record]

/-- A login response of 32 bytes: there is no uuid, and the bytes are taken for the name. -/
theorem not_sound_login : ¬ ∀ (c : Client) (k : ServerCode) (p : List UInt8),
    ∃ calls : List Callback,
      (c.handleResponse k.code p).history = c.history ++ .handled k.code p :: calls.map .called ∧
        SoundCalls c p k calls := by
  intro hall
  obtain ⟨calls, hhistory, call, rfl, uuid, name, rfl, -, hname⟩ :=
    hall Client.init (.res .loginOk) (List.replicate 32 97)
  have hmade : (Client.init.handleResponse (ServerCode.res .loginOk).code
      (List.replicate 32 97)).history.filterMap (fun
        | .called call => some call
        | _ => none) = [.eventLoggedIn [] (List.replicate 32 97)] := by
    decide +kernel
  rw [hhistory] at hmade
  injection List.singleton_inj.1 hmade with _ hstray
  rw [hstray] at hname
  have hempty := (fieldAt_iff_of_lt (by decide)).1 hname
  cases hempty

end MyTeams
