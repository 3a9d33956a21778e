import SocialActivities.Messaging.GoCap
import SocialActivities.Messaging.GoPosts

/-!
# `SocialActivities.Messaging.PyPosts`: an encrypted post (Python)

`post_message` of `apps/messaging/services.py`. Its arguments are what the request holds, decoded JSON of any
kind: a value that is no text where one is needed is written as `str()` shows it (`Runtime.text`), and one that
the code cannot use is an error. An error rolls the transaction back.

`post_exact` is the statement about both services. A post is stored when the sender may write, the sizes are
within the caps and the keys are one well-formed key for each active member, and then only if the sender's rate
limit allows it: `throttled` has all of that but the last, and is refused.
-/

namespace SocialActivities.Messaging.Py

open Lib
open Social (Cohort)

variable {ν : Type}

/-- What Python makes of numbers: which are false, and how `str()` shows a value that is no string. -/
structure Runtime (ν : Type) where
  isZero : ν → Bool
  str : Json ν → String

/-- `MESSAGING_MAX_CIPHERTEXT_BYTES` and `MESSAGING_MAX_GROUP_MEMBERS`. -/
structure Caps where
  maxCiphertext : Int
  maxMembers : Int
  deriving DecidableEq

namespace Runtime

variable (r : Runtime ν)

/-- Whether a value is true. -/
def truthy : Json ν → Bool
  | .null => false
  | .bool b => b
  | .number n => !r.isZero n
  | .string s => !s.isEmpty
  | .array items => !items.isEmpty
  | .object fields => !fields.isEmpty

/-- `str(value)`, which is also what a text column writes. -/
def text : Json ν → String
  | .string s => String.ofList s
  | v => r.str v

/-- A value for a text column that may not be null. -/
def column (v : Json ν) : Except Error String :=
  match v with
  | .null => .error .failed
  | v => .ok (r.text v)

end Runtime

/-- `value.get(name)`; only a dict has it. -/
def field (name : String) : Json ν → Except Error (Option (Json ν))
  | .object fields => .ok ((fields.find? fun f => f.1 == name.toList).map Prod.snd)
  | _ => .error .failed

/-- `len(value.encode("utf-8"))`, of a string. -/
def encodedLength : Json ν → Except Error Nat
  | .string s => .ok (String.ofList s).utf8ByteSize
  | _ => .error .failed

/-- The arguments of `post_message`. -/
structure PostInput (ν : Type) where
  ciphertext : Json ν
  iv : Json ν
  algorithm : Json ν
  recipientKeys : List (Json ν)

/-- The wrapped key in a row that has passed the checks. -/
def wrapped (r : Runtime ν) (ephemeral wrappedKey wrapIV : Json ν) : Wrapped ν :=
  ⟨ephemeral, r.text wrappedKey, r.text wrapIV⟩

/-- A value of a key that must be true. -/
def present (r : Runtime ν) (name : String) (rk : Json ν) : Except Error (Json ν) := do
  let value ← field name rk
  match value with
  | none => .error (.messaging "Each recipient key needs ephemeral_public_jwk, wrapped_key and wrap_iv.")
  | some v => do
    need (Error.messaging "Each recipient key needs ephemeral_public_jwk, wrapped_key and wrap_iv.") (r.truthy v)
    pure v

/-- The checks of one key, and its row. `provided` has the public ids before it. -/
def checkKey (r : Runtime ν) (active : KeyMap String Nat) (provided : List String) (rk : Json ν) :
    Except Error (String × Nat × Wrapped ν) := do
  let named ← field "recipient_public_id" rk
  let pub := named.elim "" r.text
  let user ← (active.get? pub).elim
    (.error (.messaging "Message keys must address exactly the active members.")) .ok
  need (Error.messaging "Duplicate recipient key.") (!provided.contains pub)
  let ephemeral ← present r "ephemeral_public_jwk" rk
  let wrappedKey ← present r "wrapped_key" rk
  let wrapIV ← present r "wrap_iv" rk
  pure (pub, user, wrapped r ephemeral wrappedKey wrapIV)

/-- The loop over the keys: the public ids and the rows. -/
def checkKeys (r : Runtime ν) (active : KeyMap String Nat) :
    List String → List (Json ν) → Except Error (List String × List (Nat × Wrapped ν))
  | provided, [] => .ok (provided, [])
  | provided, rk :: keys => do
    let (pub, row) ← checkKey r active provided rk
    let (provided, rows) ← checkKeys r active (provided ++ [pub]) keys
    pure (provided, row :: rows)

namespace State

variable (s : State) (x : Reads)

/-- Whether the sender may write: the checks on the participant and the account. -/
def maySend (sender c : Nat) : Except Error Unit := do
  let (_, cohort) ← (s.chats.natureOf c).elim (.error .doesNotExist) .ok
  let p ← (s.chats.participants.get? (c, sender)).elim
    (.error (.messaging "You are not an active member of this conversation.")) .ok
  need (Error.messaging "You are not an active member of this conversation.") p.isActive
  need (Error.messaging "Guardian observers can read but not send messages.") (p.role != .guardian)
  need (Error.messaging "You can no longer send in this conversation.")
    (s.cohort sender != .unassigned && s.cohort sender == cohort)
  need (Error.messaging "Your participation is not currently active.") (s.accounts.canParticipate x.env sender)

/-- The active participants. -/
def activeMembers (c : Nat) : List Nat :=
  (s.chats.participants.keysWhere fun key p => key.1 == c && p.isActive).map Prod.snd

def postMessage (r : Runtime ν) (caps : Caps) (ids : PublicIds) (p : Posts ν) (sender c : Nat)
    (input : PostInput ν) : Except Error (State × Posts ν) := do
  s.maySend x sender c
  need (Error.messaging "Encrypted content is required.") (r.truthy input.ciphertext && r.truthy input.iv)
  let size ← encodedLength input.ciphertext
  need (Error.messaging "Encrypted content is too large.") (decide (size ≤ caps.maxCiphertext))
  need (Error.messaging "Too many recipients for one message.")
    (decide (input.recipientKeys.length ≤ caps.maxMembers))
  need (Error.messaging "You are sending messages too quickly; slow down.") x.rateOk
  let active := Go.roster ids (s.activeMembers c)
  need (Error.messaging "Too many recipients for one message.")
    (decide (active.entries.length ≤ caps.maxMembers))
  let (provided, rows) ← checkKeys r active [] input.recipientKeys
  need (Error.messaging "A key must be provided for every active member (including yourself).")
    (active.entries.all fun e => provided.contains e.1)
  let algorithm ← r.column input.algorithm
  let m : Message := ⟨c, sender, algorithm, r.text input.ciphertext, r.text input.iv⟩
  need Error.failed (m.storable && rows.all fun row => row.2.storable)
  pure ({ s with chats := s.chats.touch c id x.env.now }, p.insert m rows)

end State

/-! ### What a post has to meet -/

/-- A key, if it is well formed: the public id that it is addressed to, and what it carries. -/
def entry (r : Runtime ν) (rk : Json ν) : Option (String × Wrapped ν) := do
  let named ← (field "recipient_public_id" rk).toOption
  let ephemeral ← (present r "ephemeral_public_jwk" rk).toOption
  let wrappedKey ← (present r "wrapped_key" rk).toOption
  let wrapIV ← (present r "wrap_iv" rk).toOption
  pure (named.elim "" r.text, wrapped r ephemeral wrappedKey wrapIV)

/-- The row of the message. -/
def message (r : Runtime ν) (sender c : Nat) (input : PostInput ν) : Message :=
  ⟨c, sender, r.text input.algorithm, r.text input.ciphertext, r.text input.iv⟩

/-- The caps on a message, and on the number of its recipients. -/
structure Sized (r : Runtime ν) (caps : Caps) (members : Nat) (input : PostInput ν) : Prop where
  ciphertext : ∃ size, encodedLength input.ciphertext = .ok size ∧ size ≤ caps.maxCiphertext
  present : r.truthy input.ciphertext = true ∧ r.truthy input.iv = true
  algorithm : r.column input.algorithm = .ok (r.text input.algorithm)
  keys : input.recipientKeys.length ≤ caps.maxMembers
  members : members ≤ caps.maxMembers
  texts : ∀ sender c, (message r sender c input).storable = true

/-- What a post has to meet; `entries` are its keys. -/
structure State.Accepts (s : State) (x : Reads) (r : Runtime ν) (caps : Caps) (ids : PublicIds) (sender c : Nat)
    (input : PostInput ν) (entries : List (String × Wrapped ν)) : Prop where
  maySend : s.maySend x sender c = .ok ()
  sized : Sized r caps (s.activeMembers c).length input
  wellFormed : input.recipientKeys.mapM (entry r) = some entries ∧ ∀ e ∈ entries, e.2.storable = true
  addressed : Addressed ids (s.activeMembers c) entries

/-! ### The checks of the keys -/

variable {r : Runtime ν}

theorem entry_eq_some {rk : Json ν} {e : String × Wrapped ν} :
    entry r rk = some e ↔ ∃ named ephemeral wrappedKey wrapIV,
      field "recipient_public_id" rk = .ok named ∧ present r "ephemeral_public_jwk" rk = .ok ephemeral ∧
      present r "wrapped_key" rk = .ok wrappedKey ∧ present r "wrap_iv" rk = .ok wrapIV ∧
      (named.elim "" r.text, wrapped r ephemeral wrappedKey wrapIV) = e := by
  simp only [entry, Option.bind_eq_bind, Option.bind_eq_some_iff, toOption_eq_some, Option.pure_def,
    Option.some.injEq]
  constructor
  · rintro ⟨named, hnamed, ephemeral, hephemeral, wrappedKey, hwrapped, wrapIV, hiv, he⟩
    exact ⟨named, ephemeral, wrappedKey, wrapIV, hnamed, hephemeral, hwrapped, hiv, he⟩
  · rintro ⟨named, ephemeral, wrappedKey, wrapIV, hnamed, hephemeral, hwrapped, hiv, he⟩
    exact ⟨named, hnamed, ephemeral, hephemeral, wrappedKey, hwrapped, wrapIV, hiv, he⟩

theorem checkKey_eq_ok {active : KeyMap String Nat} {provided : List String} {rk : Json ν}
    {pub : String} {row : Nat × Wrapped ν} :
    checkKey r active provided rk = .ok (pub, row) ↔
      entry r rk = some (pub, row.2) ∧ pub ∉ provided ∧ active.get? pub = some row.1 := by
  rw [checkKey, bind_eq_ok, entry_eq_some]
  constructor
  · intro ⟨named, hnamed, h⟩
    rw [bind_eq_ok] at h
    have ⟨user, huser, h⟩ := h
    rw [seq_eq_ok, need_eq_ok, bind_eq_ok] at h
    have ⟨hnew, ephemeral, hephemeral, h⟩ := h
    rw [bind_eq_ok] at h
    have ⟨wrappedKey, hwrapped, h⟩ := h
    rw [bind_eq_ok] at h
    have ⟨wrapIV, hiv, h⟩ := h
    cases Except.ok.inj h
    refine ⟨⟨named, ephemeral, wrappedKey, wrapIV, hnamed, hephemeral, hwrapped, hiv, rfl⟩, ?_, elim_eq_ok.1 huser⟩
    simpa using hnew
  · intro ⟨⟨named, ephemeral, wrappedKey, wrapIV, hnamed, hephemeral, hwrapped, hiv, he⟩, hnew, huser⟩
    refine ⟨named, hnamed, ?_⟩
    have hpub : named.elim "" r.text = pub := congrArg Prod.fst he
    have hrow : wrapped r ephemeral wrappedKey wrapIV = row.2 := congrArg Prod.snd he
    rw [hpub]
    dsimp only
    rw [huser, Option.elim_some, ok_bind, seq_eq_ok, need_eq_ok, hephemeral, ok_bind, hwrapped, ok_bind, hiv,
      ok_bind, hrow]
    exact ⟨by simpa using hnew, rfl⟩

/-- The row of a key. -/
def keyRow (active : KeyMap String Nat) (e : String × Wrapped ν) : Nat × Wrapped ν :=
  ((active.get? e.1).getD 0, e.2)

theorem checkKeys_eq_ok {active : KeyMap String Nat} {provided result : List String}
    {keys : List (Json ν)} {rows : List (Nat × Wrapped ν)} :
    checkKeys r active provided keys = .ok (result, rows) ↔
      ∃ entries, keys.mapM (entry r) = some entries ∧
        (∀ e ∈ entries, e.1 ∉ provided ∧ (active.get? e.1).isSome = true) ∧ (entries.map Prod.fst).Nodup ∧
        provided ++ entries.map Prod.fst = result ∧ entries.map (keyRow active) = rows := by
  induction keys generalizing provided rows with
  | nil =>
    simp only [checkKeys, Except.ok.injEq, Prod.mk.injEq, List.mapM_nil, Option.pure_def, Option.some.injEq]
    constructor
    · rintro ⟨rfl, rfl⟩
      exact ⟨[], rfl, by simp, List.nodup_nil, by simp, rfl⟩
    · rintro ⟨entries, rfl, -, -, hresult, hrows⟩
      exact ⟨by simpa using hresult, hrows⟩
  | cons rk keys ih =>
    rw [checkKeys, bind_eq_ok]
    constructor
    · rintro ⟨⟨pub, row⟩, hkey, h⟩
      have ⟨⟨last, rest⟩, hrest, h⟩ := bind_eq_ok.1 h
      cases Except.ok.inj h
      have ⟨hentry, hnew, hactive⟩ := checkKey_eq_ok.1 hkey
      have ⟨entries, hentries, hall, hnodup, hresult, hrows⟩ := ih.1 hrest
      have hfresh : ∀ e ∈ entries, e.1 ≠ pub := fun e he heq =>
        (hall e he).1 (List.mem_append_right _ (List.mem_singleton.2 heq))
      refine ⟨(pub, row.2) :: entries, ?_, ?_, ?_, ?_, ?_⟩
      · rw [List.mapM_cons, hentry, hentries]
        rfl
      · rw [List.forall_mem_cons]
        refine ⟨⟨hnew, by rw [hactive]; rfl⟩, fun e he => ⟨fun hmem => (hall e he).1 ?_, (hall e he).2⟩⟩
        exact List.mem_append_left _ hmem
      · rw [List.map_cons, List.nodup_cons]
        refine ⟨fun hmem => ?_, hnodup⟩
        have ⟨e, he, heq⟩ := List.mem_map.1 hmem
        exact hfresh e he heq
      · rw [← hresult, List.append_assoc]
        rfl
      · rw [List.map_cons, hrows, keyRow, hactive]
        rfl
    · rintro ⟨entries, hentries, hall, hnodup, hresult, hrows⟩
      rw [List.mapM_cons] at hentries
      have ⟨first, hfirst, hentries⟩ := Option.bind_eq_some_iff.1 hentries
      have ⟨rest, hrest, hentries⟩ := Option.bind_eq_some_iff.1 hentries
      cases Option.some.inj hentries
      rw [List.forall_mem_cons] at hall
      rw [List.map_cons, List.nodup_cons] at hnodup
      have ⟨user, huser⟩ := Option.isSome_iff_exists.1 hall.1.2
      refine ⟨(first.1, user, first.2), checkKey_eq_ok.2 ⟨hfirst, hall.1.1, huser⟩, ?_⟩
      refine bind_eq_ok.2 ⟨(result, rest.map (keyRow active)), ih.2 ⟨rest, hrest, ?_, hnodup.2, ?_, rfl⟩, ?_⟩
      · intro e he
        refine ⟨?_, (hall.2 e he).2⟩
        rw [List.mem_append, List.mem_singleton, not_or]
        exact ⟨(hall.2 e he).1, fun heq => hnodup.1 (heq ▸ List.mem_map_of_mem he)⟩
      · rw [← hresult, List.append_assoc]
        rfl
      · rw [← hrows, List.map_cons, keyRow, huser]
        rfl

/-! ### A post, by what it has to meet -/

namespace State

variable {s : State} {x : Reads} {r : Runtime ν} {caps : Caps} {ids : PublicIds} {p : Posts ν} {sender c : Nat}
  {input : PostInput ν}

theorem nodup_activeMembers (s : State) (c : Nat) : (s.activeMembers c).Nodup := by
  refine List.Nodup.map_on ?_ (KeyMap.nodup_keysWhere _ _)
  intro k hk j hj hsame
  have ⟨_, _, hfound⟩ := KeyMap.mem_keysWhere.mp hk
  have ⟨_, _, hfound'⟩ := KeyMap.mem_keysWhere.mp hj
  simp only [Bool.and_eq_true, beq_iff_eq] at hfound hfound'
  exact Prod.ext (hfound.1.trans hfound'.1.symm) hsame

theorem addressed_iff {members : List Nat} (hmembers : members.Nodup) {entries : List (String × Wrapped ν)} :
    ((∀ e ∈ entries, ((Go.roster ids members).get? e.1).isSome = true) ∧ (entries.map Prod.fst).Nodup ∧
      ((Go.roster ids members).entries.all fun e => (entries.map Prod.fst).contains e.1) = true) ↔
      Addressed ids members entries := by
  rw [Addressed, perm_iff_covers (hmembers.map ids.unique), List.all_eq_true]
  simp only [Go.isSome_roster, List.contains_iff_mem]
  constructor
  · rintro ⟨hsub, hnodup, hcovers⟩
    refine ⟨hnodup, fun pub hpub => ?_, fun pub hpub => ?_⟩
    · obtain ⟨e, he, heq⟩ := List.mem_map.1 hpub
      exact heq ▸ hsub e he
    · obtain ⟨u, hu⟩ := Option.isSome_iff_exists.1 (Go.isSome_roster.2 hpub)
      exact hcovers (pub, u) (KeyMap.mem_entries_iff.2 hu)
  · rintro ⟨hnodup, hsub, hcovers⟩
    refine ⟨fun e he => hsub e.1 (List.mem_map_of_mem he), hnodup, fun e he => hcovers e.1 ?_⟩
    have hget : (Go.roster ids members).get? e.1 = some e.2 := KeyMap.mem_entries_iff.1 he
    exact Go.isSome_roster.1 (by rw [hget]; rfl)

theorem column_eq_ok {v : Json ν} {text : String} :
    r.column v = .ok text ↔ r.column v = .ok (r.text v) ∧ r.text v = text := by
  cases v with
  | null => exact ⟨fun h => (by cases h), fun h => (by cases h.1)⟩
  | _ => exact ⟨fun h => ⟨rfl, Except.ok.inj h⟩, fun h => congrArg _ h.2⟩

theorem post_eq_ok {t : State} {q : Posts ν} :
    s.postMessage x r caps ids p sender c input = .ok (t, q) ↔
      ∃ entries, (s.Accepts x r caps ids sender c input entries ∧ x.rateOk = true) ∧
        { s with chats := s.chats.touch c id x.env.now } = t ∧
        p.insert (message r sender c input)
          (entries.map (keyRow (Go.roster ids (s.activeMembers c)))) = q := by
  have hmembers := nodup_activeMembers s c
  constructor
  · intro h
    rw [postMessage, seq_eq_ok, seq_eq_ok, need_eq_ok, bind_eq_ok, Bool.and_eq_true] at h
    have ⟨hmay, hpresent, size, hsize, h⟩ := h
    rw [seq_eq_ok, need_eq_ok, decide_eq_true_eq, seq_eq_ok, need_eq_ok, decide_eq_true_eq, seq_eq_ok,
      need_eq_ok] at h
    have ⟨hcap, hkeys, hrate, h⟩ := h
    rw [seq_eq_ok, need_eq_ok, decide_eq_true_eq, Go.length_roster hmembers, bind_eq_ok] at h
    have ⟨hcount, ⟨provided, rows⟩, hchecked, h⟩ := h
    rw [seq_eq_ok, need_eq_ok, bind_eq_ok] at h
    have ⟨hcovers, algorithm, halgorithm, h⟩ := h
    rw [seq_eq_ok, need_eq_ok, Bool.and_eq_true, pure_eq_ok, Prod.mk.injEq] at h
    have ⟨⟨htexts, hstorable⟩, ht, hq⟩ := h
    have ⟨entries, hentries, hall, hnodup, hprovided, hrows⟩ := checkKeys_eq_ok.1 hchecked
    have ⟨hcolumn, htext⟩ := column_eq_ok.1 halgorithm
    rw [List.nil_append] at hprovided
    rw [← hprovided] at hcovers
    rw [← htext] at htexts hq
    rw [← hrows, List.all_map, List.all_eq_true] at hstorable
    rw [← hrows] at hq
    have hsized : Sized r caps (s.activeMembers c).length input :=
      ⟨⟨size, hsize, hcap⟩, hpresent, hcolumn, hkeys, hcount, fun _ _ => htexts⟩
    have haddressed := (addressed_iff hmembers).1 ⟨fun e he => (hall e he).2, hnodup, hcovers⟩
    exact ⟨entries, ⟨⟨hmay, hsized, ⟨hentries, hstorable⟩, haddressed⟩, hrate⟩, ht, hq⟩
  · intro ⟨entries, ⟨haccepts, hrate⟩, ht, hq⟩
    have ⟨⟨size, hsize, hcap⟩, hpresent, hcolumn, hkeys, hcount, htexts⟩ := haccepts.sized
    have ⟨hsub, hnodup, hcovers⟩ := (addressed_iff hmembers).2 haccepts.addressed
    have hchecked := checkKeys_eq_ok.2 ⟨entries, haccepts.wellFormed.1,
      fun e he => ⟨List.not_mem_nil, hsub e he⟩, hnodup, rfl, rfl⟩
    rw [postMessage, seq_eq_ok, seq_eq_ok, need_eq_ok, bind_eq_ok, Bool.and_eq_true]
    refine ⟨haccepts.maySend, hpresent, size, hsize, ?_⟩
    rw [seq_eq_ok, need_eq_ok, decide_eq_true_eq, seq_eq_ok, need_eq_ok, decide_eq_true_eq, seq_eq_ok,
      need_eq_ok]
    refine ⟨hcap, hkeys, hrate, ?_⟩
    rw [seq_eq_ok, need_eq_ok, decide_eq_true_eq, Go.length_roster hmembers, bind_eq_ok]
    refine ⟨hcount, _, hchecked, ?_⟩
    rw [seq_eq_ok, need_eq_ok, hcolumn, ok_bind, seq_eq_ok, need_eq_ok, Bool.and_eq_true, List.all_map, pure_eq_ok,
      Prod.mk.injEq]
    exact ⟨hcovers, ⟨htexts sender c, List.all_eq_true.2 haccepts.wellFormed.2⟩, ht, hq⟩

theorem stored_of_post {t : State} {q : Posts ν} {entries : List (String × Wrapped ν)}
    (hentries : input.recipientKeys.mapM (entry r) = some entries)
    (h : s.postMessage x r caps ids p sender c input = .ok (t, q)) :
    Stored ids (s.activeMembers c) entries (message r sender c input) p q := by
  have ⟨entries', ⟨haccepts, _⟩, _, hq⟩ := post_eq_ok.1 h
  have heq : entries' = entries := Option.some.inj (haccepts.wellFormed.1.symm.trans hentries)
  rw [heq] at haccepts hq
  rw [← hq]
  refine stored_insert ?_ haccepts.addressed
  rw [List.map_map, List.map_congr_left (g := id), List.map_id]
  intro e he
  -- The key is addressed to a member, whose public id is the one of the key.
  have hname : e.1 ∈ (s.activeMembers c).map ids.text :=
    haccepts.addressed.mem_iff.1 (List.mem_map_of_mem he)
  have ⟨u, hu, hpub⟩ := List.mem_map.1 hname
  have hget : (Go.roster ids (s.activeMembers c)).get? e.1 = some u := Go.get?_roster.2 ⟨hu, hpub⟩
  show (ids.text (((Go.roster ids (s.activeMembers c)).get? e.1).getD 0), e.2) = e
  rw [hget, Option.getD_some, hpub]

theorem post_exactly (s : State) (x : Reads) (r : Runtime ν) (caps : Caps) (ids : PublicIds) (p : Posts ν)
    (sender c : Nat) (input : PostInput ν) :
    Exactly ((∃ entries, s.Accepts x r caps ids sender c input entries) ∧ x.rateOk = true)
      (fun q => ∃ entries, input.recipientKeys.mapM (entry r) = some entries ∧
        Stored ids (s.activeMembers c) entries (message r sender c input) p q)
      p (s.postMessage x r caps ids p sender c input) := by
  refine Exactly.of (fun ⟨⟨entries, haccepts⟩, hrate⟩ => ⟨_, post_eq_ok.2 ⟨entries, ⟨haccepts, hrate⟩, rfl, rfl⟩⟩)
    fun (_, _) h => ?_
  have ⟨entries, ⟨haccepts, hrate⟩, _⟩ := post_eq_ok.1 h
  exact ⟨⟨⟨entries, haccepts⟩, hrate⟩, entries, haccepts.wellFormed.1,
    stored_of_post haccepts.wellFormed.1 h⟩

theorem observer_receives {g : Nat} {row : Participant} (hrow : s.chats.participants.get? (c, g) = some row)
    (hobserver : row.isObserver = true) : g ∈ s.activeMembers c := by
  simp only [Participant.isObserver, Bool.and_eq_true] at hobserver
  refine List.mem_map.2 ⟨(c, g), KeyMap.mem_keysWhere.2 ⟨row, hrow, ?_⟩, rfl⟩
  simp [Participant.isActive, hobserver.2]

theorem observer_never_sends {g : Nat} {row : Participant} (hrow : s.chats.participants.get? (c, g) = some row)
    (hrole : row.role = .guardian) : s.maySend x g c ≠ .ok () := by
  intro h
  rw [maySend, bind_eq_ok] at h
  have ⟨_, _, h⟩ := h
  rw [bind_eq_ok] at h
  have ⟨found, hfound, h⟩ := h
  rw [hrow] at hfound
  cases elim_eq_ok.1 hfound
  rw [seq_eq_ok, seq_eq_ok, need_eq_ok, need_eq_ok, hrole] at h
  exact absurd h.2.1 (by decide)

end State

end SocialActivities.Messaging.Py

namespace SocialActivities.Messaging

open Lib

/-! ### Both services -/

/-- In either service a post is stored exactly when the sender may write and is within the budget, the sizes are
within the caps, and the keys are one well-formed key for each active member. It stores the message and the key
of each member, or nothing. A guardian who observes is among the recipients and never a sender. -/
theorem post_exact (ν : Type) (ids : PublicIds) (p : Posts ν) (a c : Nat) :
    (∀ (s : Go.State) (x : Go.Reads) (cfg : Go.PostConfig) (input : Go.MessageInput ν),
      Exactly (s.Accepts x cfg ids a c input ∧ x.budgetAllows = true)
        (Stored ids (s.activeMembers c) (input.recipientKeys.map Go.RecipientKey.entry)
          (Go.message a c (Go.State.normalized input)) p) p (s.postMessage x cfg ids p a c input)) ∧
    (∀ (s : Py.State) (x : Py.Reads) (r : Py.Runtime ν) (caps : Py.Caps) (input : Py.PostInput ν),
      Exactly ((∃ entries, s.Accepts x r caps ids a c input entries) ∧ x.rateOk = true)
        (fun q => ∃ entries, input.recipientKeys.mapM (Py.entry r) = some entries ∧
          Stored ids (s.activeMembers c) entries (Py.message r a c input) p q)
        p (s.postMessage x r caps ids p a c input)) ∧
    (∀ (s : Go.State) (x : Go.Reads) row, s.chats.participants.get? (c, a) = some row → row.isObserver = true →
      s.canWrite x a c ≠ .ok () ∧
      ((s.accounts.accounts.get? a).any (fun u => u.user.isActive) = true → a ∈ s.activeMembers c)) ∧
    ∀ (s : Py.State) (x : Py.Reads) row, s.chats.participants.get? (c, a) = some row → row.isObserver = true →
      s.maySend x a c ≠ .ok () ∧ a ∈ s.activeMembers c := by
  have hguardian : ∀ row : Participant, row.isObserver = true → row.role = .guardian := by
    intro row h
    simp only [Participant.isObserver, Bool.and_eq_true, beq_iff_eq] at h
    exact h.1
  refine ⟨fun s x cfg input => s.post_exactly x cfg ids p a c input,
    fun s x r caps input => s.post_exactly x r caps ids p a c input, ?_, ?_⟩
  · intro s x row hrow hobserver
    exact ⟨Go.State.observer_never_writes hrow (hguardian row hobserver), Go.State.observer_receives hrow hobserver⟩
  · intro s x row hrow hobserver
    exact ⟨Py.State.observer_never_sends hrow (hguardian row hobserver), Py.State.observer_receives hrow hobserver⟩

/-- Public ids for the samples. -/
def sampleIds : PublicIds where
  text n := String.ofList (List.replicate n 'a')
  unique m n h := by
    have hlength := congrArg List.length (String.ofList_injective h)
    rwa [List.length_replicate, List.length_replicate] at hlength

/-- A key for the member with this id. -/
def sampleKey (u : Nat) : Go.RecipientKey Nat :=
  ⟨sampleIds.text u, some ((KeyMap.empty.set "kty" (.string ['E', 'C'])).set "x" (.string ['A'])), "w", "i"⟩

/-- A message for the two members of the sample conversation. -/
def sampleInput : Go.MessageInput Nat := ⟨"c", "i", "", [sampleKey 1, sampleKey 2]⟩

/-- Nothing is wrong with this post, but the sender has used up the budget. -/
theorem throttled :
    ∃ (s : Go.State) (x : Go.Reads) (cfg : Go.PostConfig),
      s.Accepts x cfg sampleIds 1 1 sampleInput ∧
      (s.postMessage x cfg sampleIds Posts.empty 1 1 sampleInput).isOk = false := by
  have htexts : (Go.message 1 1 sampleInput).storable = true := by decide
  refine ⟨Go.after ⟨256⟩ Go.opened, { Go.sampleReads with budgetAllows := false }, ⟨⟨256⟩, 65536⟩, ⟨?_, ?_, ?_, ?_⟩, ?_⟩
  · decide +kernel
  · exact ⟨by decide, by decide, by decide, by decide, by decide +kernel, fun _ => htexts⟩
  · decide +kernel
  · have hmembers : (Go.after ⟨256⟩ Go.opened).activeMembers 1 = [1, 2] := by decide +kernel
    rw [hmembers]
    exact List.Perm.refl _
  · decide +kernel

end SocialActivities.Messaging
