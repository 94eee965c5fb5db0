import Latch.CommandLine.Run
import Latch.Proofs.Json.Records

/-!
# Locks and keys are read back

A lock and a key are written as objects without nested parts. Written on one line or over several, such
an object is a list of members with some spaces, which say of the lock or the key just what it is.

* `Json.laidOut` — an object with each member on a line of its own, or without spaces;
* `Json.IsFlat` — members without parts;
* `Lock.members`, `Key.members` — the members of a lock and of a key.

Main results:

* `Json.compact_eq_laidOut`, `Json.pretty_eq_laidOut` — both layouts of an object;
* `Lock.ofJson_laidOut`, `Key.ofJson_laidOut` — a lock and a key are read from their members, whatever the
  layout;
* `json_round_trip` — a lock and a key are read back from their texts, and a lock from what people are
  shown.
-/

namespace Latch

namespace Json

variable {members : List (String × Json)}

/-! ## Layouts -/

theorem spaces_newLine (level : Nat) : Spaces (newLine level) := by
  intro c hc
  rcases List.mem_cons.mp hc with rfl | hIndent
  · rfl
  · rw [List.eq_of_mem_replicate hIndent]
    rfl

def lineGap (level : Nat) : Gap := ⟨newLine level, spaces_newLine level⟩

/-- An object with spaces before each name, each value and the end, and behind it. -/
def laidOut (line gap last after : Gap) (members : List (String × Json)) : Document :=
  { before := noGap, members := members.map (laidOutMember line gap), last, after }

theorem compactMembers_eq (first : String × Json) (rest : List (String × Json)) :
    compactMembers (first :: rest) = membersText ((first :: rest).map (laidOutMember noGap noGap)) := by
  induction rest generalizing first with
  | nil => simp [compactMembers, membersText, moreText, laidOutMember_text, noGap]
  | cons second rest ih =>
    obtain ⟨name, value⟩ := first
    rw [compactMembers, ih second]
    · simp [membersText, moreText, laidOutMember_text, noGap]
    · exact List.cons_ne_nil _ _

theorem compact_eq_laidOut (members : List (String × Json)) :
    String.ofList (object members).compact = (laidOut noGap noGap noGap noGap members).text := by
  cases members with
  | nil => rfl
  | cons first rest =>
    rw [compact, compactMembers_eq]
    simp [Document.text, laidOut, objectText, noGap]

/-- Values without parts are written alike in both layouts. -/
def IsFlat (members : List (String × Json)) : Prop :=
  ∀ member ∈ members, member.2.prettyAt 1 = member.2.compact

theorem prettyMembers_eq (first : String × Json) (rest : List (String × Json))
    (hFlat : IsFlat (first :: rest)) :
    prettyMembers 1 (first :: rest) =
      membersText ((first :: rest).map (laidOutMember (lineGap 1) blankGap)) := by
  induction rest generalizing first with
  | nil =>
    obtain ⟨name, value⟩ := first
    have hValue : value.prettyAt 1 = value.compact := hFlat (name, value) List.mem_cons_self
    rw [prettyMembers, hValue]
    simp [membersText, moreText, laidOutMember_text, lineGap, blankGap]
  | cons second rest ih =>
    obtain ⟨name, value⟩ := first
    have hValue : value.prettyAt 1 = value.compact := hFlat (name, value) List.mem_cons_self
    have hRest := ih second fun member hMember => hFlat member (List.mem_cons_of_mem _ hMember)
    rw [prettyMembers, hValue, hRest]
    · simp [membersText, moreText, laidOutMember_text, lineGap, blankGap]
    · exact List.cons_ne_nil _ _

/-- An object whose members have no parts has one line for each of them, and its end on another. It may
be followed by spaces such as a line end. -/
theorem pretty_eq_laidOut (hFlat : IsFlat members) (hSome : members ≠ []) (after : Gap) :
    String.ofList ((object members).pretty ++ after.1) =
      (laidOut (lineGap 1) blankGap (lineGap 0) after members).text := by
  cases members with
  | nil => exact absurd rfl hSome
  | cons first rest =>
    rw [pretty, prettyAt, prettyMembers_eq first rest hFlat]
    · simp [Document.text, laidOut, objectText, lineGap, noGap]
    · exact List.cons_ne_nil _ _

end Json

open Json (Gap Spaces)

variable {after : List Char}

/-! ## Locks -/

namespace Lock

def members (lock : Lock) : List (String × Json) :=
  [("locked", .boolean lock.locked), ("unlock_time_ms", .integer lock.unlockTime.toInt),
    ("reason_code", .ofOption lock.reasonCode), ("reason", .ofOption lock.reason)]

/-- **A lock is read from its members** in either layout. -/
theorem ofJson_laidOut (lock : Lock) (line gap last after : Gap) :
    Lock.ofJson (Json.laidOut line gap last after lock.members).text = .ok lock := by
  rw [ofJson_eq_ok_iff]
  exact {
    locked := ⟨_, rfl, rfl⟩
    time := ⟨_, rfl, rfl⟩
    reasonCode := .single (Json.writesOptional_compact lock.reasonCode)
    reason := .single (Json.writesOptional_compact lock.reason) }

theorem isFlat_members (lock : Lock) : Json.IsFlat lock.members := by
  obtain ⟨locked, unlockTime, reasonCode, reason⟩ := lock
  cases reasonCode <;> cases reason <;>
    simp [Json.IsFlat, members, Json.ofOption, Json.prettyAt, Json.compact]

theorem ofJson_compact (lock : Lock) : Lock.ofJson (String.ofList lock.toJson.compact) = .ok lock := by
  have hText : String.ofList lock.toJson.compact = _ := Json.compact_eq_laidOut lock.members
  rw [hText, ofJson_laidOut]

theorem ofJson_pretty (lock : Lock) (hAfter : Spaces after) :
    Lock.ofJson (String.ofList (lock.toJson.pretty ++ after)) = .ok lock := by
  have hText : String.ofList (lock.toJson.pretty ++ after) = _ :=
    Json.pretty_eq_laidOut lock.isFlat_members (List.cons_ne_nil _ _) ⟨after, hAfter⟩
  rw [hText, ofJson_laidOut]

end Lock

/-! ## Keys -/

namespace Key

def members (key : Key) : List (String × Json) :=
  [("user_id", .text key.user), ("tenant_id", .integer key.tenant.toInt),
    ("feature_id", .text key.feature)]

/-- **A key is read from its members** in either layout. -/
theorem ofJson_laidOut (key : Key) (line gap last after : Gap) :
    Key.ofJson (Json.laidOut line gap last after key.members).text = .ok key := by
  rw [ofJson_eq_ok_iff]
  exact {
    user := ⟨_, rfl, Json.writesText_compact key.user⟩
    tenant := ⟨_, rfl, rfl⟩
    feature := ⟨_, rfl, Json.writesText_compact key.feature⟩ }

theorem isFlat_members (key : Key) : Json.IsFlat key.members := by
  simp [Json.IsFlat, members, Json.prettyAt, Json.compact]

theorem ofJson_compact (key : Key) : Key.ofJson (String.ofList key.toJson.compact) = .ok key := by
  have hText : String.ofList key.toJson.compact = _ := Json.compact_eq_laidOut key.members
  rw [hText, ofJson_laidOut]

theorem ofJson_pretty (key : Key) (hAfter : Spaces after) :
    Key.ofJson (String.ofList (key.toJson.pretty ++ after)) = .ok key := by
  have hText : String.ofList (key.toJson.pretty ++ after) = _ :=
    Json.pretty_eq_laidOut key.isFlat_members (List.cons_ne_nil _ _) ⟨after, hAfter⟩
  rw [hText, ofJson_laidOut]

end Key

/-! ## What people are shown -/

/-- What is shown of a lock as JSON is its text over several lines, and a line end. -/
theorem CommandLine.ofJson_showStatus (key : Key) (lock : Lock) :
    Lock.ofJson (CommandLine.showStatus .json key lock) = .ok lock := by
  have hEnd : Spaces ['\n'] := Json.spaces_newLine 0
  have hLine : CommandLine.showStatus .json key lock =
      String.ofList (lock.toJson.pretty ++ ['\n']) := by
    show String.ofList lock.toJson.pretty ++ "\n" = _
    rw [String.ofList_append]
  rw [hLine]
  exact lock.ofJson_pretty hEnd

/-- **Locks and keys survive being written as JSON.** A lock may have any unlock time and any texts as
its reason and code, with characters of all kinds, or none; a key may have any texts and any tenant.

* A lock is read back, as it was, from its text on one line and from its text over several lines.
* What people are shown of a status in that form is read as the lock that the status is.
* A key is read back from both texts as well. -/
theorem json_round_trip :
    (∀ lock : Lock, Lock.ofJson (String.ofList lock.toJson.compact) = .ok lock ∧
      Lock.ofJson (String.ofList lock.toJson.pretty) = .ok lock) ∧
    (∀ (c : CommandLine.DataCommand) (isQuiet enabled : Bool) (now : Millis) (s : OpenStore)
      (output : String), c.action = .status →
      (c.run .json isQuiet enabled now s).1 = .ok output →
      ∃ lock : Lock, (s.request enabled now (.status c.key)).1 = .ok lock ∧
        output = String.ofList lock.toJson.pretty ++ "\n" ∧ Lock.ofJson output = .ok lock) ∧
    ∀ key : Key, Key.ofJson (String.ofList key.toJson.compact) = .ok key ∧
      Key.ofJson (String.ofList key.toJson.pretty) = .ok key := by
  refine ⟨fun lock => ⟨lock.ofJson_compact, ?_⟩, ?_, fun key => ⟨key.ofJson_compact, ?_⟩⟩
  · have hText := lock.ofJson_pretty Json.spaces_nil
    rwa [List.append_nil] at hText
  · intro c isQuiet enabled now s output hStatus hRun
    rw [CommandLine.DataCommand.run, hStatus] at hRun
    simp only [CommandLine.ask] at hRun
    cases hAnswer : s.request enabled now (.status c.key) with
    | mk result after =>
      rw [hAnswer] at hRun
      cases result with
      | error e => cases hRun
      | ok lock =>
        cases hRun
        exact ⟨lock, rfl, rfl, CommandLine.ofJson_showStatus c.key lock⟩
  · have hText := key.ofJson_pretty Json.spaces_nil
    rwa [List.append_nil] at hText

/-! Characters of all kinds, and the least of all times. -/

example : Lock.ofJson "\x7b\"locked\":true,\"unlock_time_ms\":-9223372036854775808,
      \"reason_code\":null,\"reason\":\"\\u0000\\\"\\n𝄞\"\x7d" =
    .ok (.lockedUntil (-9223372036854775808) none (some "\x00\"\n𝄞")) := by
  decide

end Latch
