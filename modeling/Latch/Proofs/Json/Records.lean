import Latch.Json.Record
import Latch.Proofs.Json.Members
import Mathlib.Algebra.Ring.Int.Defs

/-!
# Locks and keys in objects

A lock and a key are read from an object whose members may stand in any order, with any spaces between
them, in any spelling, and with any other members among them. Reading is exact all the same: what is read
is what the members of known names say, each of which may stand once only, and numbers out of range are
refused.

* `Lock.Written`, `Key.Written` — what the members of an object say of a lock and of a key, whose numbers
  may be any integers;
* `Lock.memberNames`, `Key.memberNames` — the known names.

Main results:

* `Lock.ofJson_eq_ok_iff`, `Key.ofJson_eq_ok_iff` — a lock and a key are read exactly if the object says so;
* `records_read_exactly` — every object that says so is read, none with a known name twice, and a number
  exactly if it is in range.
-/

namespace Latch

open Json (Document Follows GivesOne GivesOptional Member ReadsExactly Steps WritesBool WritesInteger
  WritesOptional WritesText readsExactly_bool readsExactly_text valuesOf)

/-! ## Numbers and texts -/

theorem isMillis_iff {z : Int} : isMillis z = true ↔ -2 ^ 63 ≤ z ∧ z < 2 ^ 63 := by
  simp only [isMillis, Bool.and_eq_true, decide_eq_true_eq]
  omega

theorem isTenant_iff {z : Int} : isTenant z = true ↔ -2 ^ 31 ≤ z ∧ z < 2 ^ 31 := by
  simp only [isTenant, Bool.and_eq_true, decide_eq_true_eq]
  omega

def WritesMillis (value : List Char) (m : Millis) : Prop := WritesInteger value m.toInt

def WritesTenant (value : List Char) (tenant : TenantId) : Prop := WritesInteger value tenant.toInt

/-- Values of one name are the digits of one integer. -/
theorem integer_unique {values : List (List Char)} {z z' : Int} (h : GivesOne WritesInteger values z)
    (h' : GivesOne WritesInteger values z') : z = z' := by
  obtain ⟨value, rfl, rfl⟩ := h
  obtain ⟨_, hSame, rfl⟩ := h'
  exact Decimal.int_injective (List.cons.inj hSame).1

/-- Integers in the range of a word are read as words. -/
theorem Json.readsExactly_word {β : Type} {fits : Int → Bool} {ofInt : Int → β} {toInt : β → Int}
    (hFits : ∀ z, fits z = true → z.natAbs < UInt64.size) (hIn : ∀ b, fits (toInt b) = true)
    (hOf : ∀ b, ofInt (toInt b) = b) (hTo : ∀ z, fits z = true → toInt (ofInt z) = z) :
    ReadsExactly (fun cs => (Json.readInteger fits cs).map fun (n, rest) => (ofInt n, rest))
      fun value b => WritesInteger value (toInt b) where
  reads := by
    rintro _ b rfl space rest hSpace hEnds
    have hInteger := (Json.readsExactly_integer hFits).reads ⟨rfl, hIn b⟩ hSpace hEnds
    exact Json.map_eq_ok_iff.mpr ⟨_, hInteger, Prod.ext (hOf b) rfl⟩
  writes := by
    intro space value rest b rest' hSpace hValue hEnds hRead
    obtain ⟨⟨z, rest''⟩, hInteger, hSame⟩ := Json.map_eq_ok_iff.mp hRead
    obtain ⟨hInteger', hInRange⟩ := (Json.readsExactly_integer hFits).writes hSpace hValue hEnds hInteger
    cases hSame
    rwa [hTo z hInRange]

theorem readsExactly_millis : ReadsExactly readMillis WritesMillis := by
  refine Json.readsExactly_word (fun z hFits => ?_) (fun m => ?_) (fun m => Int64.ofInt_toInt m)
    fun z hFits => ?_
  · rw [isMillis_iff] at hFits
    simp only [UInt64.size]
    omega
  · exact isMillis_iff.mpr ⟨m.le_toInt, m.toInt_lt⟩
  · rw [isMillis_iff] at hFits
    exact Int64.toInt_ofInt_of_le hFits.1 hFits.2

theorem readsExactly_tenant : ReadsExactly readTenant WritesTenant := by
  refine Json.readsExactly_word (fun z hFits => ?_) (fun tenant => ?_) (fun tenant => Int32.ofInt_toInt tenant)
    fun z hFits => ?_
  · rw [isTenant_iff] at hFits
    simp only [UInt64.size]
    omega
  · exact isTenant_iff.mpr ⟨tenant.le_toInt, tenant.toInt_lt⟩
  · rw [isTenant_iff] at hFits
    exact Int32.toInt_ofInt_of_le hFits.1 hFits.2

theorem readsExactly_optionalText :
    ReadsExactly (Json.readOptional Json.readText) (WritesOptional WritesText) := by
  refine readsExactly_text.optional ?_
  rintro _ s ⟨cs, hSpells, rfl⟩
  exact ⟨.text hSpells.isSpelling, by simp [Json.quoted]⟩

/-! ## Locks -/

namespace Lock

/-- What a member does to what is known of a lock. -/
def Draft.Step (m : Member) (draft draft' : Draft) : Prop :=
  m.Gives "locked" WritesBool draft.locked draft'.locked ∧
  m.Gives "unlock_time_ms" WritesMillis draft.unlockTime draft'.unlockTime ∧
  m.Gives "reason_code" (WritesOptional WritesText) draft.reasonCode draft'.reasonCode ∧
  m.Gives "reason" (WritesOptional WritesText) draft.reason draft'.reason

/-- Each member is read as its step says. -/
theorem follows_step : Follows readMember Draft.Step := by
  rintro m ⟨locked, unlockTime, reasonCode, reason⟩ ⟨locked', unlockTime', reasonCode', reason'⟩ rest
    rest' hEnds
  unfold readMember Draft.Step Member.Gives
  -- for each name, what the reader of its field takes; the other fields stay
  by_cases hLocked : m.name = "locked"
  · grind [Json.field_eq_ok_iff readsExactly_bool m hEnds]
  by_cases hUnlockTime : m.name = "unlock_time_ms"
  · grind [Json.field_eq_ok_iff readsExactly_millis m hEnds]
  by_cases hReasonCode : m.name = "reason_code"
  · grind [Json.field_eq_ok_iff readsExactly_optionalText m hEnds]
  by_cases hReason : m.name = "reason"
  · grind [Json.field_eq_ok_iff readsExactly_optionalText m hEnds]
  · grind [Json.skipMember_body _ m hEnds]

/-- The steps of a lock are those of its fields, taken side by side. -/
theorem steps_iff {ms : List Member} {draft draft' : Draft} : Steps Draft.Step ms draft draft' ↔
    Steps (Member.Gives "locked" WritesBool) ms draft.locked draft'.locked ∧
    Steps (Member.Gives "unlock_time_ms" WritesMillis) ms draft.unlockTime draft'.unlockTime ∧
    Steps (Member.Gives "reason_code" (WritesOptional WritesText)) ms draft.reasonCode draft'.reasonCode ∧
    Steps (Member.Gives "reason" (WritesOptional WritesText)) ms draft.reason draft'.reason := by
  induction ms generalizing draft with
  | nil =>
    obtain ⟨locked, unlockTime, reasonCode, reason⟩ := draft
    obtain ⟨locked', unlockTime', reasonCode', reason'⟩ := draft'
    simp [Steps]
  | cons m ms ih =>
    simp only [Steps, ih, Draft.Step]
    constructor
    · rintro ⟨next, ⟨hLocked, hUnlockTime, hReasonCode, hReason⟩, hMore⟩
      exact ⟨⟨_, hLocked, hMore.1⟩, ⟨_, hUnlockTime, hMore.2.1⟩, ⟨_, hReasonCode, hMore.2.2.1⟩,
        ⟨_, hReason, hMore.2.2.2⟩⟩
    · -- what is known after the first member is put together field by field
      rintro ⟨⟨locked, hLocked, hLocked'⟩, ⟨unlockTime, hUnlockTime, hUnlockTime'⟩,
        ⟨reasonCode, hReasonCode, hReasonCode'⟩, ⟨reason, hReason, hReason'⟩⟩
      exact ⟨⟨locked, unlockTime, reasonCode, reason⟩, ⟨hLocked, hUnlockTime, hReasonCode, hReason⟩,
        hLocked', hUnlockTime', hReasonCode', hReason'⟩

theorem finish_eq_some_iff {draft : Draft} {lock : Lock} : draft.finish = some lock ↔
    draft.locked = some lock.locked ∧ draft.unlockTime = some lock.unlockTime ∧
      draft.reasonCode.join = lock.reasonCode ∧ draft.reason.join = lock.reason := by
  obtain ⟨locked, unlockTime, reasonCode, reason⟩ := draft
  obtain ⟨locked', unlockTime', reasonCode', reason'⟩ := lock
  simp only [Draft.finish, bind, Option.bind_eq_some_iff, pure, Option.some.injEq, Lock.mk.injEq]
  constructor
  · rintro ⟨_, rfl, _, rfl, rfl, rfl, rfl, rfl⟩
    exact ⟨rfl, rfl, rfl, rfl⟩
  · rintro ⟨rfl, rfl, rfl, rfl⟩
    exact ⟨_, rfl, _, rfl, rfl, rfl, rfl, rfl⟩

/-- The names that a lock is read from. -/
def memberNames : List String := ["locked", "unlock_time_ms", "reason_code", "reason"]

/-- What the members of an object say of a lock. The time may be any integer; the reason and its code may
be missing, or `null`. -/
structure Written (ms : List Member) (locked : Bool) (time : Int) (reasonCode reason : Option String) :
    Prop where
  locked : GivesOne WritesBool (valuesOf "locked" ms) locked
  time : GivesOne WritesInteger (valuesOf "unlock_time_ms" ms) time
  reasonCode : GivesOptional WritesText (valuesOf "reason_code" ms) reasonCode
  reason : GivesOptional WritesText (valuesOf "reason" ms) reason

/-- **A lock is read exactly if the object says it.** -/
theorem ofJson_eq_ok_iff (d : Document) (lock : Lock) : Lock.ofJson d.text = .ok lock ↔
    Written d.members lock.locked lock.unlockTime.toInt lock.reasonCode lock.reason := by
  rw [Lock.ofJson, Lock.read, Json.readAll_record_eq_ok_iff follows_step]
  simp only [steps_iff, finish_eq_some_iff]
  constructor
  · rintro ⟨draft, ⟨hLocked, hUnlockTime, hReasonCode, hReason⟩, hLocked', hUnlockTime', hReasonCode',
      hReason'⟩
    rw [hLocked', Json.steps_gives_some_iff] at hLocked
    rw [hUnlockTime', Json.steps_gives_some_iff] at hUnlockTime
    exact ⟨hLocked, hUnlockTime, Json.exists_steps_gives_iff.mp ⟨_, hReasonCode, hReasonCode'⟩,
      Json.exists_steps_gives_iff.mp ⟨_, hReason, hReason'⟩⟩
  · intro h
    obtain ⟨reasonCode, hReasonCode, hReasonCode'⟩ := Json.exists_steps_gives_iff.mpr h.reasonCode
    obtain ⟨reason, hReason, hReason'⟩ := Json.exists_steps_gives_iff.mpr h.reason
    exact ⟨⟨some lock.locked, some lock.unlockTime, reasonCode, reason⟩,
      ⟨Json.steps_gives_some_iff.mpr h.locked, Json.steps_gives_some_iff.mpr h.time, hReasonCode, hReason⟩,
      rfl, rfl, hReasonCode', hReason'⟩

theorem Written.length {ms : List Member} {locked : Bool} {time : Int} {reasonCode reason : Option String}
    (h : Written ms locked time reasonCode reason) {name : String} (hName : name ∈ memberNames) :
    (valuesOf name ms).length ≤ 1 := by
  simp only [memberNames, List.mem_cons, List.not_mem_nil, or_false] at hName
  obtain rfl | rfl | rfl | rfl := hName
  · exact h.locked.length
  · exact h.time.length
  · exact h.reasonCode.length
  · exact h.reason.length

/-- What is said of a lock is a lock exactly if the time is in range. -/
theorem Written.exists_iff {d : Document} {locked : Bool} {time : Int} {reasonCode reason : Option String}
    (h : Written d.members locked time reasonCode reason) :
    (∃ lock, Lock.ofJson d.text = .ok lock) ↔ -2 ^ 63 ≤ time ∧ time < 2 ^ 63 := by
  constructor
  · rintro ⟨lock, hRead⟩
    rw [integer_unique h.time ((ofJson_eq_ok_iff d lock).mp hRead).time]
    exact ⟨lock.unlockTime.le_toInt, lock.unlockTime.toInt_lt⟩
  · rintro ⟨hLow, hHigh⟩
    refine ⟨⟨locked, Int64.ofInt time, reasonCode, reason⟩, (ofJson_eq_ok_iff d _).mpr ?_⟩
    rw [Int64.toInt_ofInt_of_le hLow hHigh]
    exact h

end Lock

/-! ## Keys -/

namespace Key

/-- What a member does to what is known of a key. -/
def Draft.Step (m : Member) (draft draft' : Draft) : Prop :=
  m.Gives "user_id" WritesText draft.user draft'.user ∧
  m.Gives "tenant_id" WritesTenant draft.tenant draft'.tenant ∧
  m.Gives "feature_id" WritesText draft.feature draft'.feature

theorem follows_step : Follows readMember Draft.Step := by
  rintro m ⟨user, tenant, feature⟩ ⟨user', tenant', feature'⟩ rest rest' hEnds
  unfold readMember Draft.Step Member.Gives
  by_cases hUser : m.name = "user_id"
  · grind [Json.field_eq_ok_iff readsExactly_text m hEnds]
  by_cases hTenant : m.name = "tenant_id"
  · grind [Json.field_eq_ok_iff readsExactly_tenant m hEnds]
  by_cases hFeature : m.name = "feature_id"
  · grind [Json.field_eq_ok_iff readsExactly_text m hEnds]
  · grind [Json.skipMember_body _ m hEnds]

theorem steps_iff {ms : List Member} {draft draft' : Draft} : Steps Draft.Step ms draft draft' ↔
    Steps (Member.Gives "user_id" WritesText) ms draft.user draft'.user ∧
    Steps (Member.Gives "tenant_id" WritesTenant) ms draft.tenant draft'.tenant ∧
    Steps (Member.Gives "feature_id" WritesText) ms draft.feature draft'.feature := by
  induction ms generalizing draft with
  | nil =>
    obtain ⟨user, tenant, feature⟩ := draft
    obtain ⟨user', tenant', feature'⟩ := draft'
    simp [Steps]
  | cons m ms ih =>
    simp only [Steps, ih, Draft.Step]
    constructor
    · rintro ⟨next, ⟨hUser, hTenant, hFeature⟩, hMore⟩
      exact ⟨⟨_, hUser, hMore.1⟩, ⟨_, hTenant, hMore.2.1⟩, ⟨_, hFeature, hMore.2.2⟩⟩
    · rintro ⟨⟨user, hUser, hUser'⟩, ⟨tenant, hTenant, hTenant'⟩, ⟨feature, hFeature, hFeature'⟩⟩
      exact ⟨⟨user, tenant, feature⟩, ⟨hUser, hTenant, hFeature⟩, hUser', hTenant', hFeature'⟩

theorem finish_eq_some_iff {draft : Draft} {key : Key} : draft.finish = some key ↔
    draft.user = some key.user ∧ draft.tenant = some key.tenant ∧ draft.feature = some key.feature := by
  obtain ⟨user, tenant, feature⟩ := draft
  obtain ⟨user', tenant', feature'⟩ := key
  simp only [Draft.finish, bind, Option.bind_eq_some_iff, pure, Option.some.injEq, Key.mk.injEq]
  constructor
  · rintro ⟨_, rfl, _, rfl, _, rfl, rfl, rfl, rfl⟩
    exact ⟨rfl, rfl, rfl⟩
  · rintro ⟨rfl, rfl, rfl⟩
    exact ⟨_, rfl, _, rfl, _, rfl, rfl, rfl, rfl⟩

/-- The names that a key is read from. -/
def memberNames : List String := ["user_id", "tenant_id", "feature_id"]

/-- What the members of an object say of a key. The tenant may be any integer. -/
structure Written (ms : List Member) (user : String) (tenant : Int) (feature : String) : Prop where
  user : GivesOne WritesText (valuesOf "user_id" ms) user
  tenant : GivesOne WritesInteger (valuesOf "tenant_id" ms) tenant
  feature : GivesOne WritesText (valuesOf "feature_id" ms) feature

/-- **A key is read exactly if the object says it.** -/
theorem ofJson_eq_ok_iff (d : Document) (key : Key) : Key.ofJson d.text = .ok key ↔
    Written d.members key.user key.tenant.toInt key.feature := by
  rw [Key.ofJson, Key.read, Json.readAll_record_eq_ok_iff follows_step]
  simp only [steps_iff, finish_eq_some_iff]
  constructor
  · rintro ⟨draft, ⟨hUser, hTenant, hFeature⟩, hUser', hTenant', hFeature'⟩
    rw [hUser', Json.steps_gives_some_iff] at hUser
    rw [hTenant', Json.steps_gives_some_iff] at hTenant
    rw [hFeature', Json.steps_gives_some_iff] at hFeature
    exact ⟨hUser, hTenant, hFeature⟩
  · intro h
    exact ⟨⟨some key.user, some key.tenant, some key.feature⟩,
      ⟨Json.steps_gives_some_iff.mpr h.user, Json.steps_gives_some_iff.mpr h.tenant,
        Json.steps_gives_some_iff.mpr h.feature⟩, rfl, rfl, rfl⟩

theorem Written.length {ms : List Member} {user feature : String} {tenant : Int}
    (h : Written ms user tenant feature) {name : String} (hName : name ∈ memberNames) :
    (valuesOf name ms).length ≤ 1 := by
  simp only [memberNames, List.mem_cons, List.not_mem_nil, or_false] at hName
  obtain rfl | rfl | rfl := hName
  · exact h.user.length
  · exact h.tenant.length
  · exact h.feature.length

/-- What is said of a key is a key exactly if the tenant is in range. -/
theorem Written.exists_iff {d : Document} {user feature : String} {tenant : Int}
    (h : Written d.members user tenant feature) :
    (∃ key, Key.ofJson d.text = .ok key) ↔ -2 ^ 31 ≤ tenant ∧ tenant < 2 ^ 31 := by
  constructor
  · rintro ⟨key, hRead⟩
    rw [integer_unique h.tenant ((ofJson_eq_ok_iff d key).mp hRead).tenant]
    exact ⟨key.tenant.le_toInt, key.tenant.toInt_lt⟩
  · rintro ⟨hLow, hHigh⟩
    refine ⟨⟨user, Int32.ofInt tenant, feature⟩, (ofJson_eq_ok_iff d _).mpr ?_⟩
    rw [Int32.toInt_ofInt_of_le hLow hHigh]
    exact h

end Key

/-! ## Every object -/

/-- **Locks and keys are read from objects of any layout, and exactly.** The members may stand in any
order, with other members among them, of any names and with values of any kind and depth; names and texts
may be spelled with any escapes, and spaces may stand wherever they are allowed. A name is a text, so that
no half of a pair stands alone in it, which it may in the values that are passed over.

* A lock is read exactly if the object says of it what it is: its two required members are there, and the
  other two are there as texts, are `null`, or are missing and then say that there is none.
* A key is read exactly if its three members are there and say so.
* With a second member of a known name nothing is read, whatever the two say.
* Whatever integer is given as the time of a lock, a lock is read exactly if the integer has 64 bits, and
  then this is its time; and so with the tenant of a key and 32 bits.

An integer stands in plain digits: neither `-0` nor a number with a fraction or an exponent is one. -/
theorem records_read_exactly (d : Document) :
    (∀ lock : Lock, Lock.ofJson d.text = .ok lock ↔
      Lock.Written d.members lock.locked lock.unlockTime.toInt lock.reasonCode lock.reason) ∧
    (∀ key : Key, Key.ofJson d.text = .ok key ↔
      Key.Written d.members key.user key.tenant.toInt key.feature) ∧
    (∀ name ∈ Lock.memberNames, 2 ≤ (valuesOf name d.members).length →
      ∃ fault, Lock.ofJson d.text = .error fault) ∧
    (∀ name ∈ Key.memberNames, 2 ≤ (valuesOf name d.members).length →
      ∃ fault, Key.ofJson d.text = .error fault) ∧
    (∀ (locked : Bool) (time : Int) (reasonCode reason : Option String),
      Lock.Written d.members locked time reasonCode reason →
        ((∃ lock, Lock.ofJson d.text = .ok lock) ↔ -2 ^ 63 ≤ time ∧ time < 2 ^ 63) ∧
          ∀ lock, Lock.ofJson d.text = .ok lock → lock.unlockTime.toInt = time) ∧
    ∀ (user : String) (tenant : Int) (feature : String),
      Key.Written d.members user tenant feature →
        ((∃ key, Key.ofJson d.text = .ok key) ↔ -2 ^ 31 ≤ tenant ∧ tenant < 2 ^ 31) ∧
          ∀ key, Key.ofJson d.text = .ok key → key.tenant.toInt = tenant := by
  refine ⟨Lock.ofJson_eq_ok_iff d, Key.ofJson_eq_ok_iff d, ?_, ?_, ?_, ?_⟩
  · intro name hName hTwice
    cases hRead : Lock.ofJson d.text with
    | error fault => exact ⟨fault, rfl⟩
    | ok lock =>
      have hOnce := ((Lock.ofJson_eq_ok_iff d lock).mp hRead).length hName
      omega
  · intro name hName hTwice
    cases hRead : Key.ofJson d.text with
    | error fault => exact ⟨fault, rfl⟩
    | ok key =>
      have hOnce := ((Key.ofJson_eq_ok_iff d key).mp hRead).length hName
      omega
  · intro locked time reasonCode reason hWritten
    refine ⟨hWritten.exists_iff, fun lock hRead => ?_⟩
    exact integer_unique ((Lock.ofJson_eq_ok_iff d lock).mp hRead).time hWritten.time
  · intro user tenant feature hWritten
    refine ⟨hWritten.exists_iff, fun key hRead => ?_⟩
    exact integer_unique ((Key.ofJson_eq_ok_iff d key).mp hRead).tenant hWritten.tenant

/-! A lock and a key in one object, in no order: the first letter of a name is escaped, the reason is
`null` and its code is missing, the time is the least of all and the tenant just too large, and a number
beyond all doubles and half of a pair are passed over. -/

theorem Json.isValue_tangled : Json.IsValue "[1e999, \x7b\"\\ud800\":null\x7d]".toList := by
  have hNumber : Json.IsNumber "1e999".toList :=
    .parts (.inl rfl) (Json.isWhole_nat 1) .missing
      (.mark (.inl rfl) (.inl rfl) (Json.isWhole_nat 999).toIsDigits)
  have hHalf : Json.Text.IsSpelling "\\ud800".toList :=
    @Json.Text.IsSpelling.unit "d800".toList [] _ (.digits rfl rfl rfl rfl) .nil
  have hMember : Json.Derives (.item .object) "\"\\ud800\":null".toList :=
    .member Json.spaces_nil hHalf Json.spaces_nil Json.spaces_nil .null Json.spaces_nil
  have hSecond : Json.Derives (.item .array) " \x7b\"\\ud800\":null\x7d".toList :=
    .element Json.spaces_blank (.filled (.one hMember)) Json.spaces_nil
  exact .filled (.more (Json.derives_element (.number hNumber)) (.one hSecond))

theorem Json.spells_tangled : Json.Text.Spells "\\u006cocked".toList "locked".toList := by
  have hUnit : Json.Text.IsUnit "006c".toList 'l'.toNat :=
    @Json.Text.IsUnit.digits '0' '0' '6' 'c' 0 0 6 12 rfl rfl rfl rfl
  exact .unit hUnit (Json.Text.spells_escaped "ocked".toList)

def Json.Document.tangled : Document where
  before := Json.blankGap
  members :=
    [Json.laidOutMember Json.noGap Json.noGap ("feature_id", .text "sms-otp"),
      { Json.laidOutMember Json.noGap Json.noGap ("more", .null) with
        value := "[1e999, \x7b\"\\ud800\":null\x7d]".toList
        isValue := Json.isValue_tangled },
      Json.laidOutMember Json.noGap Json.noGap ("reason", .null),
      Json.laidOutMember Json.noGap Json.noGap ("unlock_time_ms", .integer (-9223372036854775808)),
      Json.laidOutMember Json.noGap Json.noGap ("tenant_id", .integer 2147483648),
      { Json.laidOutMember Json.noGap Json.noGap ("locked", .boolean true) with
        spelling := "\\u006cocked".toList
        spells := Json.spells_tangled },
      Json.laidOutMember Json.noGap Json.noGap ("user_id", .text "")]
  last := Json.blankGap
  after := Json.noGap

def Json.Document.tangledTwice : Document :=
  { tangled with members := tangled.members ++ [laidOutMember noGap noGap ("reason", .null)] }

theorem records_read_exactly_tangled :
    Document.tangled.text = " \x7b\"feature_id\":\"sms-otp\",\"more\":[1e999, \x7b\"\\ud800\":null\x7d]"
      ++ ",\"reason\":null,\"unlock_time_ms\":-9223372036854775808,\"tenant_id\":2147483648"
      ++ ",\"\\u006cocked\":true,\"user_id\":\"\" \x7d" ∧
    Lock.ofJson Document.tangled.text = .ok ⟨true, -9223372036854775808, none, none⟩ ∧
    (¬ ∃ key, Key.ofJson Document.tangled.text = .ok key) ∧
    ∃ fault, Lock.ofJson Document.tangledTwice.text = .error fault := by
  obtain ⟨hLock, -, -, -, -, hTenant⟩ := records_read_exactly Document.tangled
  obtain ⟨-, -, hTwice, -⟩ := records_read_exactly Document.tangledTwice
  have hKey : Key.Written Document.tangled.members "" 2147483648 "sms-otp" := {
    user := ⟨_, rfl, Json.writesText_compact ""⟩
    tenant := ⟨_, rfl, rfl⟩
    feature := ⟨_, rfl, Json.writesText_compact "sms-otp"⟩ }
  refine ⟨by decide +kernel, (hLock _).mpr ⟨⟨_, rfl, rfl⟩, ⟨_, rfl, rfl⟩, .missing, .single .null⟩, ?_,
    hTwice "reason" (by decide) (by decide)⟩
  rw [(hTenant _ _ _ hKey).1]
  omega

end Latch
