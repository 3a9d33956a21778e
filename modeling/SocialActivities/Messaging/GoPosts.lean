import SocialActivities.Messaging.GoRosters
import SocialActivities.Messaging.Recipients

/-!
# `SocialActivities.Messaging.GoPosts`: an encrypted post (Go)

`Post` of `internal/messaging/messages.go`, with the checks of its input. The texts of a request are valid
UTF-8, and a JSON object arrives as a map. A statement fails where a text has a NUL character, and an error
rolls the transaction back.

`Accepts` is what a post has to meet: the sender may write and is within the budget, the sizes are within the
caps, and the keys are well formed and name every active member with an active account once. `post_eq_ok` reads
it off the code, which compares three lengths and checks each key for a repetition.
-/

namespace SocialActivities.Messaging.Go

open Lib
open Social.Go (Error)

variable {ν : Type}

/-- `RecipientKey`. A map that is not there is `nil`. -/
structure RecipientKey (ν : Type) where
  recipientPublicID : String
  ephemeralPublicJWK : Option (KeyMap String (Json ν))
  wrappedKey : String
  wrapIV : String

structure MessageInput (ν : Type) where
  ciphertext : String
  iv : String
  algorithm : String
  recipientKeys : List (RecipientKey ν)

/-- The settings of the service. -/
structure PostConfig extends Config where
  maxCiphertextBytes : Int
  deriving DecidableEq

def PostConfig.maxCiphertext (cfg : PostConfig) : Nat :=
  if cfg.maxCiphertextBytes < 1 ∨ 65536 < cfg.maxCiphertextBytes then 65536 else cfg.maxCiphertextBytes.toNat

/-! ### The keys -/

/-- A string of at most so many bytes. -/
def isShortText (limit : Nat) : Json ν → Bool
  | .string s => decide ((String.ofList s).utf8ByteSize ≤ limit)
  | _ => false

/-- What `publicJWK` asks of a field. -/
def validField (name : String) (value : Json ν) : Bool :=
  if ["kty", "x", "y", "crv", "alg", "kid", "use"].contains name then isShortText 512 value
  else if name = "ext" then
    match value with
    | .bool _ => true
    | _ => false
  else if name = "key_ops" then
    match value with
    | .array ops => decide (ops.length ≤ 8) && ops.all (isShortText 32)
    | _ => false
  else false

def publicJWK : Option (KeyMap String (Json ν)) → Bool
  | none => false
  | some jwk =>
    decide (jwk.entries.length ≤ 12) &&
    (match jwk.get? "kty" with
      | some (.string kind) => String.ofList kind == "EC" || String.ofList kind == "OKP"
      | _ => false) &&
    (match jwk.get? "x" with
      | some (.string x) => !x.isEmpty && decide ((String.ofList x).utf8ByteSize ≤ 512)
      | _ => false) &&
    jwk.entries.all fun e => validField e.1 e.2

namespace RecipientKey

variable (k : RecipientKey ν)

/-- The checks of a key that do not depend on the others. -/
def wellFormed : Bool :=
  publicJWK k.ephemeralPublicJWK && k.wrappedKey != "" && decide (k.wrappedKey.utf8ByteSize ≤ 4096)
    && k.wrapIV != "" && decide (k.wrapIV.utf8ByteSize ≤ 64)

/-- `json.Marshal` of the key, with the other texts. -/
def wrapped : Wrapped ν where
  ephemeralPublicJWK := .object ((k.ephemeralPublicJWK.elim [] KeyMap.entries).map fun e => (e.1.toList, e.2))
  wrappedKey := k.wrappedKey
  wrapIV := k.wrapIV

/-- A key under the public id that it is addressed to. -/
def entry : String × Wrapped ν := (k.recipientPublicID, k.wrapped)

end RecipientKey

/-! ### Post -/

def validateInputBounded (input : MessageInput ν) (maxMembers maxCiphertext : Nat) :
    Except Error (MessageInput ν) := do
  need Error.errInvalid (input.ciphertext != "" && decide (input.ciphertext.utf8ByteSize ≤ maxCiphertext)
    && input.iv != "" && decide (input.iv.utf8ByteSize ≤ 64)
    && decide (input.recipientKeys.length ≤ maxMembers) && decide (input.algorithm.utf8ByteSize ≤ 32))
  pure { input with algorithm := if input.algorithm = "" then "AES-GCM-256" else input.algorithm }

/-- `active`: the members under their public ids. -/
def roster (ids : PublicIds) (members : List Nat) : KeyMap String Nat :=
  members.foldl (fun active u => active.set (ids.text u) u) KeyMap.empty

/-- The loop over the keys. An id is positive, so 0 is a public id that is not there. -/
def checkKeys (active : KeyMap String Nat) : List String → List (RecipientKey ν) → Except Error (List String)
  | seen, [] => .ok seen
  | seen, k :: keys => do
    need Error.errInvalid (!seen.contains k.recipientPublicID && (active.get? k.recipientPublicID).isSome
      && k.wellFormed)
    checkKeys active (seen ++ [k.recipientPublicID]) keys

def message (a c : Nat) (input : MessageInput ν) : Message :=
  ⟨c, a, input.algorithm, input.ciphertext, input.iv⟩

/-- The rows for `messaging_messagekey`, as the four arrays are unnested. -/
def keyRows (active : KeyMap String Nat) (keys : List (RecipientKey ν)) : List (Nat × Wrapped ν) :=
  keys.map fun k => ((active.get? k.recipientPublicID).getD 0, k.wrapped)

namespace State

variable (s : State) (x : Reads)

/-- The second transaction of `Post`. -/
def deliver (cfg : PostConfig) (ids : PublicIds) (p : Posts ν) (a c : Nat) (input : MessageInput ν) :
    Except Error (State × Posts ν) := do
  s.canWrite x a c
  let members := s.members c
  need Error.errInvalid (decide (members.length ≤ cfg.maxMembers)
    && members.length == input.recipientKeys.length)
  let active := roster ids members
  let seen ← checkKeys active [] input.recipientKeys
  need Error.errInvalid (seen.length == active.entries.length)
  let m := message a c input
  let rows := keyRows active input.recipientKeys
  need Error.failed (m.storable && rows.all fun row => row.2.storable)
  pure ({ s with chats := s.chats.touch c id x.env.now }, p.insert m rows)

/-- `Post`. The first transaction takes the budget and commits. -/
def postMessage (cfg : PostConfig) (ids : PublicIds) (p : Posts ν) (a c : Nat) (input : MessageInput ν) :
    Except Error (State × Posts ν) := do
  let input ← validateInputBounded input cfg.maxMembers cfg.maxCiphertext
  s.canWrite x a c
  need Error.errForbidden x.budgetAllows
  s.deliver x cfg ids p a c input

/-! ### What a post has to meet -/

/-- The active participants with an active account. -/
def activeMembers (c : Nat) : List Nat :=
  (s.chats.participants.keysWhere fun key p => key.1 == c && p.isActive
    && (s.accounts.accounts.get? key.2).any fun u => u.user.isActive).map Prod.snd

/-- The caps on a message, and on the number of its recipients. -/
structure Sized (cfg : PostConfig) (c : Nat) (input : MessageInput ν) : Prop where
  ciphertext : input.ciphertext ≠ "" ∧ input.ciphertext.utf8ByteSize ≤ cfg.maxCiphertext
  iv : input.iv ≠ "" ∧ input.iv.utf8ByteSize ≤ 64
  algorithm : input.algorithm.utf8ByteSize ≤ 32
  keys : input.recipientKeys.length ≤ cfg.maxMembers
  members : (s.activeMembers c).length ≤ cfg.maxMembers
  texts : ∀ a, (message a c input).storable = true

/-- What a post has to meet. -/
structure Accepts (cfg : PostConfig) (ids : PublicIds) (a c : Nat) (input : MessageInput ν) : Prop where
  mayWrite : s.canWrite x a c = .ok ()
  sized : s.Sized cfg c input
  wellFormed : ∀ k ∈ input.recipientKeys, k.wellFormed = true ∧ k.wrapped.storable = true
  addressed : Addressed ids (s.activeMembers c) (input.recipientKeys.map RecipientKey.entry)

end State

/-! ### The roster -/

variable {ids : PublicIds} {members : List Nat}

variable {pub : String}

theorem get?_foldl_set (active : KeyMap String Nat) {u : Nat} :
    (members.foldl (fun active u => active.set (ids.text u) u) active).get? pub = some u ↔
      (u ∈ members ∧ ids.text u = pub) ∨ (pub ∉ members.map ids.text ∧ active.get? pub = some u) := by
  induction members generalizing active with
  | nil => simp
  | cons v members ih =>
    rw [List.foldl_cons, ih, KeyMap.get?_set, List.map_cons, List.mem_cons, List.mem_cons, not_or]
    by_cases hv : pub = ids.text v
    · -- A public id belongs to one user, so the row set here is the only candidate.
      have huv : ids.text u = pub ↔ u = v := by
        rw [hv]
        exact ids.unique.eq_iff
      rw [if_pos hv, huv, Option.some.injEq]
      have hmem : pub ∉ members.map ids.text ↔ v ∉ members := by
        rw [hv, List.mem_map_of_injective ids.unique]
      rw [hmem]
      constructor
      · rintro (⟨hu, rfl⟩ | ⟨-, rfl⟩)
        · exact .inl ⟨.inr hu, rfl⟩
        · exact .inl ⟨.inl rfl, rfl⟩
      · rintro (⟨-, rfl⟩ | ⟨⟨hne, -⟩, -⟩)
        · by_cases hu : u ∈ members
          · exact .inl ⟨hu, rfl⟩
          · exact .inr ⟨hu, rfl⟩
        · exact absurd hv hne
    · rw [if_neg hv]
      constructor
      · rintro (⟨hu, hpub⟩ | ⟨hnone, hactive⟩)
        · exact .inl ⟨.inr hu, hpub⟩
        · exact .inr ⟨⟨hv, hnone⟩, hactive⟩
      · rintro (⟨hu, hpub⟩ | ⟨⟨-, hnone⟩, hactive⟩)
        · cases hu with
          | inl huv => exact absurd (huv ▸ hpub).symm hv
          | inr hu => exact .inl ⟨hu, hpub⟩
        · exact .inr ⟨hnone, hactive⟩

theorem get?_roster {u : Nat} :
    (roster ids members).get? pub = some u ↔ u ∈ members ∧ ids.text u = pub := by
  rw [roster, get?_foldl_set, KeyMap.get?_empty]
  simp

theorem isSome_roster :
    ((roster ids members).get? pub).isSome = true ↔ pub ∈ members.map ids.text := by
  rw [Option.isSome_iff_exists, List.mem_map]
  exact exists_congr fun u => get?_roster

theorem length_roster (hmembers : members.Nodup) : (roster ids members).entries.length = members.length := by
  have hperm : ((roster ids members).entries.map Prod.fst).Perm (members.map ids.text) :=
    (List.perm_ext_iff_of_nodup (roster ids members).nodup (hmembers.map ids.unique)).2 fun pub => by
      rw [KeyMap.mem_keys_iff, ← Option.isSome_iff_exists, isSome_roster]
  have hlength := hperm.length_eq
  rwa [List.length_map, List.length_map] at hlength

theorem checkKeys_eq_ok {active : KeyMap String Nat} {seen result : List String} {keys : List (RecipientKey ν)} :
    checkKeys active seen keys = .ok result ↔
      (∀ k ∈ keys, k.recipientPublicID ∉ seen ∧ (active.get? k.recipientPublicID).isSome = true
        ∧ k.wellFormed = true) ∧
      (keys.map RecipientKey.recipientPublicID).Nodup ∧
      seen ++ keys.map RecipientKey.recipientPublicID = result := by
  induction keys generalizing seen with
  | nil => simp [checkKeys]
  | cons k keys ih =>
    rw [checkKeys, seq_eq_ok, need_eq_ok, ih]
    simp only [Bool.and_eq_true, Bool.not_eq_true', List.contains_eq_mem, decide_eq_false_iff_not,
      List.forall_mem_cons, List.map_cons, List.nodup_cons, List.mem_append, List.mem_singleton, not_or,
      List.append_assoc, List.singleton_append]
    constructor
    · rintro ⟨⟨⟨hseen, hactive⟩, hformed⟩, hrest, hnodup, hresult⟩
      refine ⟨⟨⟨hseen, hactive, hformed⟩, fun j hj => ⟨(hrest j hj).1.1, (hrest j hj).2⟩⟩, ⟨?_, hnodup⟩, hresult⟩
      intro hmem
      obtain ⟨j, hj, heq⟩ := List.mem_map.1 hmem
      exact (hrest j hj).1.2 heq
    · rintro ⟨⟨⟨hseen, hactive, hformed⟩, hrest⟩, ⟨hne, hnodup⟩, hresult⟩
      refine ⟨⟨⟨hseen, hactive⟩, hformed⟩, fun j hj => ⟨⟨(hrest j hj).1, ?_⟩, (hrest j hj).2⟩, hnodup, hresult⟩
      exact fun heq => hne (heq ▸ List.mem_map_of_mem hj)

/-! ### A post, by what it has to meet -/

namespace State

variable {s : State} {x : Reads} {cfg : PostConfig} {p : Posts ν} {a c : Nat} {input : MessageInput ν}

theorem members_eq (h : (s.activeMembers c).length ≤ 256) : s.members c = s.activeMembers c :=
  List.take_of_length_le (Nat.le_succ_of_le h)

theorem length_members_le_iff (cfg : Config) :
    (s.members c).length ≤ cfg.maxMembers ↔ (s.activeMembers c).length ≤ cfg.maxMembers := by
  have hlength : (s.members c).length = min 257 (s.activeMembers c).length := List.length_take
  have hcap := cfg.maxMembers_le
  omega

theorem nodup_activeMembers (s : State) (c : Nat) : (s.activeMembers c).Nodup := by
  refine List.Nodup.map_on ?_ (KeyMap.nodup_keysWhere _ _)
  intro k hk j hj hsame
  have ⟨_, _, hfound⟩ := KeyMap.mem_keysWhere.mp hk
  have ⟨_, _, hfound'⟩ := KeyMap.mem_keysWhere.mp hj
  simp only [Bool.and_eq_true, beq_iff_eq] at hfound hfound'
  exact Prod.ext (hfound.1.1.trans hfound'.1.1.symm) hsame

/-- The input with the default algorithm. -/
def normalized (input : MessageInput ν) : MessageInput ν :=
  { input with algorithm := if input.algorithm = "" then "AES-GCM-256" else input.algorithm }

theorem storable_normalized : (message a c (normalized input)).storable = (message a c input).storable := by
  have hdefault : Messaging.storable (some 32) "AES-GCM-256" = Messaging.storable (some 32) "" := by decide
  simp only [normalized, message, Message.storable]
  by_cases h : input.algorithm = ""
  · rw [if_pos h, h, hdefault]
  · rw [if_neg h]

theorem validateInputBounded_eq_ok {maxMembers maxCiphertext : Nat} {result : MessageInput ν} :
    validateInputBounded input maxMembers maxCiphertext = .ok result ↔
      (input.ciphertext ≠ "" ∧ input.ciphertext.utf8ByteSize ≤ maxCiphertext) ∧
      (input.iv ≠ "" ∧ input.iv.utf8ByteSize ≤ 64) ∧ input.recipientKeys.length ≤ maxMembers ∧
      input.algorithm.utf8ByteSize ≤ 32 ∧ normalized input = result := by
  rw [validateInputBounded, seq_eq_ok, need_eq_ok, pure_eq_ok]
  simp only [Bool.and_eq_true, decide_eq_true_eq, bne_iff_ne, ne_eq, and_assoc]
  rfl

/-- The checks on the list of keys come to this: they name every member once and nobody else. -/
theorem deliver_keys_iff {members : List Nat} (hmembers : members.Nodup) {keys : List (Go.RecipientKey ν)} :
    (∃ seen, members.length = keys.length ∧ checkKeys (roster ids members) [] keys = .ok seen ∧
      seen.length = (roster ids members).entries.length) ↔
      (∀ k ∈ keys, k.wellFormed = true) ∧ Addressed ids members (keys.map RecipientKey.entry) := by
  have hnames : (keys.map RecipientKey.entry).map Prod.fst = keys.map RecipientKey.recipientPublicID := by
    rw [List.map_map]
    rfl
  rw [Addressed, hnames, perm_iff (hmembers.map ids.unique), List.length_map, List.length_map]
  constructor
  · rintro ⟨seen, hlength, hkeys, _⟩
    obtain ⟨hall, hnodup, _⟩ := checkKeys_eq_ok.1 hkeys
    refine ⟨fun k hk => (hall k hk).2.2, hnodup, fun pub hpub => ?_, hlength.symm⟩
    obtain ⟨k, hk, heq⟩ := List.mem_map.1 hpub
    exact heq ▸ isSome_roster.1 (hall k hk).2.1
  · rintro ⟨hformed, hnodup, hsub, hlength⟩
    refine ⟨_, hlength.symm, checkKeys_eq_ok.2 ⟨fun k hk => ?_, hnodup, rfl⟩, ?_⟩
    · exact ⟨List.not_mem_nil, isSome_roster.2 (hsub _ (List.mem_map_of_mem hk)), hformed k hk⟩
    · rw [length_roster hmembers, List.nil_append, List.length_map, hlength]

variable {t : State} {q : Posts ν}

theorem deliver_eq_ok :
    s.deliver x cfg ids p a c input = .ok (t, q) ↔
      s.canWrite x a c = .ok () ∧ (s.activeMembers c).length ≤ cfg.maxMembers ∧
      ((∀ k ∈ input.recipientKeys, k.wellFormed = true) ∧
        Addressed ids (s.activeMembers c) (input.recipientKeys.map RecipientKey.entry)) ∧
      ((message a c input).storable = true ∧ ∀ k ∈ input.recipientKeys, k.wrapped.storable = true) ∧
      { s with chats := s.chats.touch c id x.env.now } = t ∧
      p.insert (message a c input) (keyRows (roster ids (s.activeMembers c)) input.recipientKeys) = q := by
  rw [deliver, seq_eq_ok]
  refine and_congr_right fun _ => ?_
  rw [seq_eq_ok, need_eq_ok, Bool.and_eq_true, decide_eq_true_eq, length_members_le_iff, beq_iff_eq, and_assoc]
  refine and_congr_right fun hcap => ?_
  -- Within the cap the limit of the query cuts nothing off.
  rw [members_eq (Nat.le_trans hcap cfg.maxMembers_le), ← deliver_keys_iff (nodup_activeMembers s c), bind_eq_ok]
  have hrows : ((keyRows (roster ids (s.activeMembers c)) input.recipientKeys).all fun row => row.2.storable) =
      input.recipientKeys.all fun k => k.wrapped.storable := by
    rw [keyRows, List.all_map]
    rfl
  constructor
  · intro ⟨hlength, seen, hseen, h⟩
    rw [seq_eq_ok, need_eq_ok, beq_iff_eq, seq_eq_ok, need_eq_ok, hrows, Bool.and_eq_true, List.all_eq_true,
      pure_eq_ok, Prod.mk.injEq] at h
    exact ⟨⟨seen, hlength, hseen, h.1⟩, h.2.1, h.2.2⟩
  · intro ⟨⟨seen, hlength, hseen, hcount⟩, hstorable, hresult⟩
    refine ⟨hlength, seen, hseen, ?_⟩
    rw [seq_eq_ok, need_eq_ok, beq_iff_eq, seq_eq_ok, need_eq_ok, hrows, Bool.and_eq_true, List.all_eq_true,
      pure_eq_ok, Prod.mk.injEq]
    exact ⟨hcount, hstorable, hresult⟩

theorem post_eq_ok :
    s.postMessage x cfg ids p a c input = .ok (t, q) ↔
      (s.Accepts x cfg ids a c input ∧ x.budgetAllows = true) ∧
      { s with chats := s.chats.touch c id x.env.now } = t ∧
      p.insert (message a c (normalized input))
        (keyRows (roster ids (s.activeMembers c)) input.recipientKeys) = q := by
  rw [postMessage, bind_eq_ok]
  constructor
  · intro ⟨input', hvalid, h⟩
    have ⟨hcipher, hiv, hkeys, halgorithm, hnormal⟩ := validateInputBounded_eq_ok.1 hvalid
    rw [← hnormal, seq_eq_ok, seq_eq_ok, need_eq_ok, deliver_eq_ok, storable_normalized] at h
    have ⟨hwrite, hbudget, _, hmembers, ⟨hformed, haddressed⟩, ⟨htexts, hkeytexts⟩, hresult⟩ := h
    have hsized : s.Sized cfg c input := ⟨hcipher, hiv, halgorithm, hkeys, hmembers, fun _ => htexts⟩
    exact ⟨⟨⟨hwrite, hsized, fun k hk => ⟨hformed k hk, hkeytexts k hk⟩, haddressed⟩, hbudget⟩, hresult⟩
  · intro ⟨⟨haccepts, hbudget⟩, hresult⟩
    have hsized := haccepts.sized
    refine ⟨normalized input, validateInputBounded_eq_ok.2
      ⟨hsized.ciphertext, hsized.iv, hsized.keys, hsized.algorithm, rfl⟩, ?_⟩
    rw [seq_eq_ok, seq_eq_ok, need_eq_ok, deliver_eq_ok, storable_normalized]
    exact ⟨haccepts.mayWrite, hbudget, haccepts.mayWrite, hsized.members,
      ⟨fun k hk => (haccepts.wellFormed k hk).1, haccepts.addressed⟩,
      ⟨hsized.texts a, fun k hk => (haccepts.wellFormed k hk).2⟩, hresult⟩

/-- Whom a key is for. -/
def recipient (ids : PublicIds) (members : List Nat) (k : Go.RecipientKey ν) : Nat :=
  ((roster ids members).get? k.recipientPublicID).getD 0

theorem text_recipient {members : List Nat} {keys : List (Go.RecipientKey ν)} {k : Go.RecipientKey ν}
    (haddressed : Addressed ids members (keys.map RecipientKey.entry)) (hk : k ∈ keys) :
    ids.text (recipient ids members k) = k.recipientPublicID := by
  have hname : k.recipientPublicID ∈ members.map ids.text := by
    rw [← haddressed.mem_iff, List.map_map]
    exact List.mem_map_of_mem hk
  have ⟨u, hu, hpub⟩ := List.mem_map.1 hname
  rw [recipient, get?_roster.2 ⟨hu, hpub⟩, Option.getD_some, hpub]

theorem stored_of_post (h : s.postMessage x cfg ids p a c input = .ok (t, q)) :
    Stored ids (s.activeMembers c) (input.recipientKeys.map RecipientKey.entry) (message a c (normalized input))
      p q := by
  have ⟨⟨haccepts, _⟩, _, hq⟩ := post_eq_ok.1 h
  rw [← hq]
  refine stored_insert ?_ haccepts.addressed
  rw [keyRows, List.map_map]
  refine List.map_congr_left fun k hk => ?_
  show (ids.text (recipient ids (s.activeMembers c) k), k.wrapped) = _
  rw [text_recipient haccepts.addressed hk]
  rfl

theorem post_refines (h : s.postMessage x cfg ids p a c input = .ok (t, q))
    (hfails : x.fails = false) :
    s.post x cfg.toConfig a c
      (input.recipientKeys.map fun k => ⟨recipient ids (s.activeMembers c) k, k.wellFormed⟩) true = .ok t := by
  have ⟨⟨haccepts, hbudget⟩, ht, _⟩ := post_eq_ok.1 h
  have hperm : (input.recipientKeys.map (recipient ids (s.activeMembers c))).Perm (s.activeMembers c) := by
    apply (List.map_perm_map_iff ids.unique).1
    have heq : (input.recipientKeys.map (recipient ids (s.activeMembers c))).map ids.text =
        (input.recipientKeys.map RecipientKey.entry).map Prod.fst := by
      rw [List.map_map, List.map_map]
      exact List.map_congr_left fun k hk => text_recipient haccepts.addressed hk
    rw [heq]
    exact haccepts.addressed
  have hcap := haccepts.sized.members
  have hlength := hperm.length_eq
  rw [List.length_map] at hlength
  rw [post, seq_eq_ok, need_eq_ok, seq_eq_ok, seq_eq_ok, need_eq_ok, seq_eq_ok, need_eq_ok, seq_eq_ok, need_eq_ok,
    seq_eq_ok, need_eq_ok, members_eq (Nat.le_trans hcap cfg.maxMembers_le), hfails, pure_eq_ok]
  simp only [List.length_map, List.map_map, List.all_map, Bool.true_and, Bool.and_eq_true, decide_eq_true_eq,
    beq_iff_eq, List.all_eq_true, List.contains_iff_mem, Function.comp_apply]
  refine ⟨haccepts.sized.keys, haccepts.mayWrite, hbudget, ⟨hcap, hlength.symm⟩, ⟨?_, fun k hk => ?_⟩, rfl, ht⟩
  · exact hperm.nodup_iff.2 (nodup_activeMembers s c)
  · exact ⟨hperm.mem_iff.1 (List.mem_map_of_mem hk), (haccepts.wellFormed k hk).1⟩

theorem post_exactly (s : State) (x : Reads) (cfg : PostConfig) (ids : PublicIds) (p : Posts ν) (a c : Nat)
    (input : MessageInput ν) :
    Exactly (s.Accepts x cfg ids a c input ∧ x.budgetAllows = true)
      (Stored ids (s.activeMembers c) (input.recipientKeys.map RecipientKey.entry)
        (message a c (normalized input)) p) p (s.postMessage x cfg ids p a c input) :=
  Exactly.of (fun h => ⟨_, post_eq_ok.2 ⟨h, rfl, rfl⟩⟩)
    fun (_, _) h => ⟨(post_eq_ok.1 h).1, stored_of_post h⟩

theorem observer_receives {g : Nat} {r : Participant} (hrow : s.chats.participants.get? (c, g) = some r)
    (hobserver : r.isObserver = true)
    (hactive : (s.accounts.accounts.get? g).any (fun u => u.user.isActive) = true) :
    g ∈ s.activeMembers c := by
  simp only [Participant.isObserver, Bool.and_eq_true] at hobserver
  refine List.mem_map.2 ⟨(c, g), KeyMap.mem_keysWhere.2 ⟨r, hrow, ?_⟩, rfl⟩
  simp [Participant.isActive, hobserver.2, hactive]

theorem observer_never_writes {g : Nat} {r : Participant} (hrow : s.chats.participants.get? (c, g) = some r)
    (hrole : r.role = .guardian) : s.canWrite x g c ≠ .ok () := by
  intro h
  rw [canWrite, bind_eq_ok] at h
  have ⟨ok, _, h⟩ := h
  rw [seq_eq_ok, need_eq_ok, need_eq_ok, hrow] at h
  have hnot := h.2
  rw [Option.any_some, hrole] at hnot
  exact absurd hnot (by decide)

end State

end SocialActivities.Messaging.Go
