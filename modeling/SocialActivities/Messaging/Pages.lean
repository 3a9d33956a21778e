import SocialActivities.Lib.Paging
import SocialActivities.Messaging.Pairs

/-!
# `SocialActivities.Messaging.Pages`: reading the messages of a conversation (Go)

`Messages` and `messagesHTTP`. A request with `after` asks for what a client has not seen, and one
with a cursor for what came before a page. Both give their pages in the order of `(created_at, id)`,
but `after` compares the ids, and a message has got its time when its transaction started and its
id when it was written.
-/

namespace SocialActivities.Messaging.Go

open Lib
open Social.Go (Error)

/-- A row of `messaging_message`, under its id, and the recipients in `messaging_messagekey`. Times
are in microseconds. -/
structure Message where
  conversation : Nat
  createdAt : Nat
  recipients : List Nat
  deriving DecidableEq

/-- The messages. Their ids come from a sequence that starts at one. -/
structure Mailbox where
  messages : KeyMap Nat Message
  positive : ∀ id m, messages.get? id = some m → 0 < id

/-- What a request reads. -/
structure Moment where
  state : State
  reads : Reads
  box : Mailbox

/-- `(created_at, id)`. -/
def stamp (r : Nat × Message) : Nat ×ₗ Nat := toLex (r.2.createdAt, r.1)

/-- `ORDER BY m.created_at,m.id`. -/
def ordered (rows : List (Nat × Message)) : List (Nat × Message) :=
  rows.insertionSort fun r r' => stamp r ≤ stamp r'

/-- `ParseLimit`. A text that is no number is `none`. -/
def parseLimit (raw : Option Int) (defaultLimit maxLimit : Nat) : Nat :=
  let limit := raw.getD defaultLimit
  if limit < 1 then 1 else if (maxLimit : Int) < limit then maxLimit else limit.toNat

/-- The bound on the pages, from `MessagePageLimit`. -/
def pageBound (messagePageLimit : Int) : Nat :=
  if messagePageLimit < 1 ∨ 50 < messagePageLimit then 50 else messagePageLimit.toNat

/-- A page as a response has it. One that is not versioned has no cursor. -/
structure Page where
  results : List (Nat × Message)
  nextCursor : Option Nat

namespace Moment

variable (t : Moment) (a c : Nat)

/-- The messages of the conversation that are addressed to the user and have not disappeared. -/
def readable : List (Nat × Message) :=
  t.box.messages.entries.filter fun r => r.2.conversation == c && r.2.recipients.contains a
    && (t.state.chats.conversations.get? c).any fun v => v.disappearing == 0
      || decide (t.reads.env.now < r.2.createdAt + v.disappearing * 1000000)

/-- The anchor of a page, which may have disappeared. -/
def anchor (before : Int) : Option (Nat × Message) :=
  ((t.box.messages.get? before.toNat).filter fun m => m.conversation == c).map fun m =>
    (before.toNat, m)

def messages (limit : Nat) (after before : Int) : Except Error (List (Nat × Message)) := do
  let ok ← t.state.canView t.reads a c
  need Error.errForbidden ok
  need Error.errInvalid (decide (1 ≤ limit) && decide (limit ≤ 51))
  if before ≤ 0 ∧ 0 < after then
    pure ((ordered ((t.readable a c).filter fun r => decide (after < (r.1 : Int)))).take limit)
  else
    -- Without a position, or when the anchor has been purged, this is the newest page.
    let rows := ordered ((t.readable a c).filter fun r => decide (before ≤ 0)
      || (t.anchor c before).all fun r' => decide (stamp r < stamp r'))
    pure (rows.reverse.take limit).reverse

/-- `messagesHTTP`: a GET. -/
def messagesHTTP (messagePageLimit : Int) (versioned : Bool) (limit : Option Int)
    (after cursor : Int) : Except Error Page := do
  let maxLimit := pageBound messagePageLimit
  let limit := parseLimit limit maxLimit maxLimit
  if versioned then do
    let data ← t.messages a c (limit + 1) after cursor
    if limit < data.length ∧ cursor ≤ 0 ∧ 0 < after then pure ⟨data.take limit, none⟩
    else if limit < data.length then pure ⟨data.drop 1, (data.drop 1).head?.map Prod.fst⟩
    else pure ⟨data, none⟩
  else do
    let data ← t.messages a c limit after 0
    pure ⟨data, none⟩

end Moment

/-- The requests of a client who goes on after the last message of the page, until a page is empty,
and the messages that it receives. -/
inductive ForwardWalk (page : Int → Except Error Page) : Int → List (Nat × Message) → Prop where
  | done (after : Int) (p : Page) (hpage : page after = .ok p) (hempty : p.results = []) :
    ForwardWalk page after []
  | more (after : Int) (p : Page) (last : Nat × Message) (rest : List (Nat × Message))
    (hpage : page after = .ok p) (hlast : p.results.getLast? = some last)
    (hrest : ForwardWalk page last.1 rest) : ForwardWalk page after (p.results ++ rest)

/-- The requests of a client who goes back by the cursors, from the request `i` on, and the messages
that it receives. The pages that it gets later are put before those that it has. -/
inductive BackwardWalk (page : Nat → Int → Except Error Page) :
    Nat → Int → List (Nat × Message) → Prop where
  | last (i : Nat) (cursor : Int) (p : Page) (hpage : page i cursor = .ok p)
    (hnone : p.nextCursor = none) : BackwardWalk page i cursor p.results
  | more (i : Nat) (cursor : Int) (p : Page) (next : Nat) (rest : List (Nat × Message))
    (hpage : page i cursor = .ok p) (hnext : p.nextCursor = some next)
    (hrest : BackwardWalk page (i + 1) next rest) :
    BackwardWalk page i cursor (rest ++ p.results)

/-- The client asks with the cursor in its request `i`. -/
inductive Asks (page : Nat → Int → Except Error Page) : Nat → Int → Prop where
  | first : Asks page 0 0
  | next (i : Nat) (cursor : Int) (p : Page) (next : Nat) (h : Asks page i cursor)
    (hpage : page i cursor = .ok p) (hnext : p.nextCursor = some next) : Asks page (i + 1) next

/-- The requests by cursor. -/
def cursorPages (moments : Nat → Moment) (a c : Nat) (messagePageLimit : Int) (limit : Option Int)
    (i : Nat) (cursor : Int) : Except Error Page :=
  (moments i).messagesHTTP a c messagePageLimit true limit 0 cursor

/-- No anchor is purged before it is asked for. -/
def AnchorsKept (moments : Nat → Moment) (a c : Nat) (messagePageLimit : Int)
    (limit : Option Int) : Prop :=
  ∀ i cursor p next, Asks (cursorPages moments a c messagePageLimit limit) i cursor →
    cursorPages moments a c messagePageLimit limit i cursor = .ok p → p.nextCursor = some next →
      (moments (i + 1)).box.messages.get? next = (moments i).box.messages.get? next

/-- What the two walks promise. A walk forward from `x` gives every message with a greater id that is
addressed to the user once. A walk back, while messages come and disappear but no anchor is
purged, gives every message that is there all the time, in the order of `(created_at, id)`. -/
structure WalkLaw (moments : Nat → Moment) (a c : Nat) (messagePageLimit : Int)
    (versioned : Bool) (limit : Option Int) (x : Int) : Prop where
  forward : ∃ received, ForwardWalk
    (fun after => (moments 0).messagesHTTP a c messagePageLimit versioned limit after 0) x received ∧
      received.Perm (((moments 0).readable a c).filter fun r => decide (x < (r.1 : Int)))
  backward : AnchorsKept moments a c messagePageLimit limit → ∃ received,
    BackwardWalk (cursorPages moments a c messagePageLimit limit) 0 0 received ∧
      received.Pairwise (fun r r' => stamp r < stamp r') ∧
      (∀ r ∈ received, ∃ i, r ∈ (moments i).readable a c) ∧
      ∀ r, (∀ i, r ∈ (moments i).readable a c) → r ∈ received

/-- The id of a row, as `after` compares it. -/
def rowId (r : Nat × Message) : Int := r.1

/-- At the end of every page of what is to come, the messages so far have the smaller ids. Without a
position the first page is the newest one, so what is older has to have greater ids, and what is on
that page has to be passed again by the pages that follow. -/
def InStep (n : Nat) (x : Int) (rows : List (Nat × Message)) : Prop :=
  if 0 < x then Paging.Separated rowId n (ordered (rows.filter fun r => decide (x < (r.1 : Int))))
  else
    let older := (ordered rows).take (rows.length - n)
    let newest := (ordered rows).drop (rows.length - n)
    ∀ last, newest.getLast? = some last → (∀ m ∈ older, rowId last < rowId m) ∧
      Paging.Separated rowId n older ∧
        ∀ m ∈ newest, rowId m ≤ rowId last ∨ Paging.Passed rowId n older m

section
variable {t : Moment} {a c : Nat} {rows rows' : List (Nat × Message)} {r : Nat × Message}

/-! ### The order of the messages -/

/-- The rows have different ids. -/
def Distinct (rows : List (Nat × Message)) : Prop := (rows.map Prod.fst).Nodup

theorem Distinct.filter (h : Distinct rows) (p : Nat × Message → Bool) :
    Distinct (rows.filter p) :=
  h.sublist (List.filter_sublist.map _)

theorem distinct_readable (t : Moment) (a c : Nat) : Distinct (t.readable a c) :=
  Distinct.filter t.box.messages.nodup _

theorem mem_ordered : r ∈ ordered rows ↔ r ∈ rows := List.mem_insertionSort _

theorem length_ordered (rows : List (Nat × Message)) : (ordered rows).length = rows.length :=
  List.length_insertionSort _ _

theorem ordered_perm (rows : List (Nat × Message)) : (ordered rows).Perm rows :=
  List.perm_insertionSort _ _

theorem ordered_pairwise (h : Distinct rows) :
    (ordered rows).Pairwise fun r r' => stamp r < stamp r' := by
  have hsorted : (ordered rows).Pairwise fun r r' => stamp r ≤ stamp r' :=
    List.pairwise_insertionSort _ _
  have hids : (ordered rows).Pairwise fun r r' => r.1 ≠ r'.1 :=
    List.pairwise_map.mp (((ordered_perm rows).map Prod.fst).nodup_iff.mpr h)
  refine (hsorted.and hids).imp fun ⟨hle, hne⟩ => lt_of_le_of_ne hle fun hsame => hne ?_
  exact congrArg (fun s => (ofLex s).2) hsame

theorem ordered_eq (h : Distinct rows) (hperm : rows'.Perm rows)
    (hsorted : rows'.Pairwise fun r r' => stamp r < stamp r') : ordered rows = rows' :=
  List.Perm.eq_of_pairwise (fun _ _ _ _ hlt hgt => absurd hgt (lt_asymm hlt)) (ordered_pairwise h)
    hsorted ((ordered_perm rows).trans hperm.symm)

theorem ordered_filter (h : Distinct rows) (p : Nat × Message → Bool) :
    ordered (rows.filter p) = (ordered rows).filter p :=
  ordered_eq (h.filter p) ((ordered_perm rows).filter p) ((ordered_pairwise h).filter _)

theorem nodup_ordered (h : Distinct rows) : (ordered rows).Nodup :=
  (ordered_pairwise h).imp fun hlt => by
    rintro rfl
    exact lt_irrefl _ hlt

/-! ### The pages -/

/-- The sorted messages before a cursor. -/
def Moment.earlier (t : Moment) (a c : Nat) (cursor : Int) : List (Nat × Message) :=
  ordered ((t.readable a c).filter fun r => decide (cursor ≤ 0)
    || (t.anchor c cursor).all fun r' => decide (stamp r < stamp r'))

/-- The newest page of the rows, with a cursor if there are more. -/
def newestPage (n : Nat) (rows : List (Nat × Message)) : Page where
  results := rows.drop (rows.length - n)
  nextCursor := if n < rows.length then (rows.drop (rows.length - n)).head?.map Prod.fst else none

theorem pageBound_spec (messagePageLimit : Int) :
    1 ≤ pageBound messagePageLimit ∧ pageBound messagePageLimit ≤ 50 := by
  unfold pageBound
  split <;> omega

theorem parseLimit_spec (raw : Option Int) {defaultLimit maxLimit : Nat} (hmax : 1 ≤ maxLimit) :
    1 ≤ parseLimit raw defaultLimit maxLimit ∧ parseLimit raw defaultLimit maxLimit ≤ maxLimit := by
  unfold parseLimit
  dsimp only
  split
  · omega
  · split
    · omega
    · omega

/-- The number of messages on a page. -/
def pageSize (messagePageLimit : Int) (limit : Option Int) : Nat :=
  parseLimit limit (pageBound messagePageLimit) (pageBound messagePageLimit)

theorem pageSize_spec (messagePageLimit : Int) (limit : Option Int) :
    1 ≤ pageSize messagePageLimit limit ∧ pageSize messagePageLimit limit ≤ 50 := by
  have hbound := pageBound_spec messagePageLimit
  have hsize := @parseLimit_spec limit (pageBound messagePageLimit) _ hbound.1
  unfold pageSize
  omega

theorem messages_forward (hview : t.state.canView t.reads a c = .ok true) {n : Nat}
    (hn : 1 ≤ n ∧ n ≤ 51) {after before : Int} (hafter : before ≤ 0 ∧ 0 < after) :
    t.messages a c n after before =
      .ok ((Paging.after rowId (ordered (t.readable a c)) after).take n) := by
  unfold Moment.messages
  rw [bind_eq_ok]
  refine ⟨true, hview, ?_⟩
  rw [seq_eq_ok, seq_eq_ok, need_eq_ok, need_eq_ok, if_pos hafter, pure_eq_ok,
    ordered_filter (distinct_readable t a c)]
  exact ⟨rfl, by simp [hn.1, hn.2], rfl⟩

theorem messages_backward (hview : t.state.canView t.reads a c = .ok true) {n : Nat}
    (hn : 1 ≤ n ∧ n ≤ 51) {after cursor : Int} (hafter : ¬(cursor ≤ 0 ∧ 0 < after)) :
    t.messages a c n after cursor =
      .ok ((t.earlier a c cursor).drop ((t.earlier a c cursor).length - n)) := by
  unfold Moment.messages
  rw [bind_eq_ok]
  refine ⟨true, hview, ?_⟩
  rw [seq_eq_ok, seq_eq_ok, need_eq_ok, need_eq_ok, if_neg hafter]
  refine ⟨rfl, by simp [hn.1, hn.2], ?_⟩
  show pure ((t.earlier a c cursor).reverse.take n).reverse = _
  rw [pure_eq_ok, List.take_reverse, List.reverse_reverse]

/-- A forward page has the first messages after the position. -/
theorem messagesHTTP_forward (hview : t.state.canView t.reads a c = .ok true)
    (messagePageLimit : Int) (versioned : Bool) (limit : Option Int) {after : Int}
    (hafter : 0 < after) :
    t.messagesHTTP a c messagePageLimit versioned limit after 0 =
      .ok ⟨(Paging.after rowId (ordered (t.readable a c)) after).take
        (pageSize messagePageLimit limit), none⟩ := by
  have hn := pageSize_spec messagePageLimit limit
  unfold Moment.messagesHTTP
  dsimp only
  rw [← pageSize]
  generalize pageSize messagePageLimit limit = n at hn
  cases versioned with
  | false =>
    rw [if_neg Bool.false_ne_true, messages_forward hview (by omega) ⟨Int.le_refl 0, hafter⟩]
    rfl
  | true =>
    rw [if_pos rfl, bind_eq_ok]
    refine ⟨_, messages_forward hview (by omega) ⟨Int.le_refl 0, hafter⟩, ?_⟩
    generalize Paging.after rowId (ordered (t.readable a c)) after = rows
    split
    · rw [List.take_take, Nat.min_eq_left (Nat.le_succ n)]
      rfl
    · rename_i hfit
      -- One more than a page was asked for, and did not come.
      have hall : rows.length ≤ n := by
        by_contra hmore
        refine hfit ⟨?_, Int.le_refl 0, hafter⟩
        rw [List.length_take]
        omega
      rw [if_neg (by rw [List.length_take]; omega), List.take_of_length_le (by omega),
        List.take_of_length_le hall]
      rfl

theorem messagesHTTP_backward (hview : t.state.canView t.reads a c = .ok true)
    (messagePageLimit : Int) (limit : Option Int) {after cursor : Int}
    (hafter : ¬(cursor ≤ 0 ∧ 0 < after)) :
    t.messagesHTTP a c messagePageLimit true limit after cursor =
      .ok (newestPage (pageSize messagePageLimit limit) (t.earlier a c cursor)) := by
  have hn := pageSize_spec messagePageLimit limit
  unfold Moment.messagesHTTP
  dsimp only
  rw [← pageSize]
  generalize pageSize messagePageLimit limit = n at hn
  rw [if_pos rfl, bind_eq_ok]
  refine ⟨_, messages_backward hview (by omega) hafter, ?_⟩
  generalize t.earlier a c cursor = rows
  rw [if_neg fun h => hafter h.2, List.length_drop]
  unfold newestPage
  by_cases hmore : n < rows.length
  · have hdrop : (rows.drop (rows.length - (n + 1))).drop 1 = rows.drop (rows.length - n) := by
      rw [List.drop_drop]
      congr 1
      omega
    rw [if_pos (by omega), if_pos hmore, hdrop]
    rfl
  · rw [if_neg (by omega), if_neg hmore, Nat.sub_eq_zero_of_le (by omega),
      Nat.sub_eq_zero_of_le (by omega)]
    rfl

/-- A request without a position has the newest messages. -/
theorem messagesHTTP_newest (hview : t.state.canView t.reads a c = .ok true)
    (messagePageLimit : Int) (versioned : Bool) (limit : Option Int) {after : Int}
    (hafter : after ≤ 0) :
    ∃ p, t.messagesHTTP a c messagePageLimit versioned limit after 0 = .ok p ∧
      p.results = (ordered (t.readable a c)).drop
        ((t.readable a c).length - pageSize messagePageLimit limit) := by
  have hn := pageSize_spec messagePageLimit limit
  have hearlier : t.earlier a c 0 = ordered (t.readable a c) :=
    congrArg ordered (List.filter_eq_self.mpr fun r _ => rfl)
  have hnot : ¬((0 : Int) ≤ 0 ∧ 0 < after) := by omega
  cases versioned with
  | false =>
    refine ⟨⟨(ordered (t.readable a c)).drop
      ((t.readable a c).length - pageSize messagePageLimit limit), none⟩, ?_, rfl⟩
    unfold Moment.messagesHTTP
    dsimp only
    rw [← pageSize, if_neg Bool.false_ne_true, messages_backward hview (by omega) hnot, hearlier,
      length_ordered]
    rfl
  | true =>
    refine ⟨_, messagesHTTP_backward hview messagePageLimit limit hnot, ?_⟩
    rw [hearlier]
    show (ordered _).drop _ = _
    rw [length_ordered]

/-! ### The walk forward -/

theorem rowId_pos (h : r ∈ t.readable a c) : 0 < rowId r := by
  have hrow := KeyMap.mem_entries_iff.mp (List.mem_of_mem_filter h)
  have hpositive := t.box.positive r.1 r.2 hrow
  show (0 : Int) < (r.1 : Int)
  omega

variable {messagePageLimit : Int} {versioned : Bool} {limit : Option Int} {x : Int}
  {received : List (Nat × Message)}

theorem forwardWalk_iff (hview : t.state.canView t.reads a c = .ok true) (hx : 0 < x) :
    ForwardWalk (fun after => t.messagesHTTP a c messagePageLimit versioned limit after 0) x
        received ↔
      Paging.Walk rowId (pageSize messagePageLimit limit) (ordered (t.readable a c)) x
        received := by
  have hlastPos : ∀ {position : Int} {last : Nat × Message},
      ((Paging.after rowId (ordered (t.readable a c)) position).take
        (pageSize messagePageLimit limit)).getLast? = some last → 0 < rowId last := by
    intro position last hlast
    have hmem := List.mem_of_mem_take (List.mem_of_getLast? hlast)
    exact rowId_pos (mem_ordered.mp (Paging.mem_after.mp hmem).1)
  constructor
  · intro h
    induction h with
    | done after p hpage hempty =>
      rw [messagesHTTP_forward hview _ _ _ hx] at hpage
      cases hpage
      exact Paging.Walk.done _ hempty
    | more after p last rest hpage hlast hrest ih =>
      rw [messagesHTTP_forward hview _ _ _ hx] at hpage
      cases hpage
      exact Paging.Walk.more _ last rest hlast (ih (hlastPos hlast))
  · intro h
    induction h with
    | done position hpage =>
      exact ForwardWalk.done _ _ (messagesHTTP_forward hview _ _ _ hx) hpage
    | more position last rest hlast hrest ih =>
      have hrest' := ih (hlastPos hlast)
      refine ForwardWalk.more position ⟨_, none⟩ last rest ?_ hlast hrest'
      exact messagesHTTP_forward hview _ _ _ hx

/-- Without a position, the client gets the newest page and walks on from its last message. -/
theorem forwardWalk_newest_iff (hview : t.state.canView t.reads a c = .ok true) (hx : x ≤ 0)
    {last : Nat × Message}
    (hlast : ((ordered (t.readable a c)).drop
      ((t.readable a c).length - pageSize messagePageLimit limit)).getLast? = some last) :
    ForwardWalk (fun after => t.messagesHTTP a c messagePageLimit versioned limit after 0) x
        received ↔
      ∃ rest, received = (ordered (t.readable a c)).drop
          ((t.readable a c).length - pageSize messagePageLimit limit) ++ rest ∧
        Paging.Walk rowId (pageSize messagePageLimit limit) (ordered (t.readable a c))
          (rowId last) rest := by
  obtain ⟨p, hp, hresults⟩ :=
    @messagesHTTP_newest t a c hview messagePageLimit versioned limit x hx
  have hpositive : 0 < rowId last :=
    rowId_pos (mem_ordered.mp (List.mem_of_mem_drop (List.mem_of_getLast? hlast)))
  rw [← hresults] at hlast ⊢
  constructor
  · intro h
    cases h with
    | done _ p' hpage hempty =>
      have hsame : p = p' := Except.ok.inj (hp.symm.trans hpage)
      rw [hsame, hempty] at hlast
      cases hlast
    | more _ p' last' rest hpage hlast' hrest =>
      have hsame : p = p' := Except.ok.inj (hp.symm.trans hpage)
      subst hsame
      rw [hlast] at hlast'
      cases hlast'
      exact ⟨rest, rfl, (forwardWalk_iff hview hpositive).mp hrest⟩
  · rintro ⟨rest, rfl, hrest⟩
    exact ForwardWalk.more x p last rest hp hlast ((forwardWalk_iff hview hpositive).mpr hrest)

/-- From a position on, the walk gives every later message once exactly when the ids are in step. -/
theorem forward_iff_of_pos (hview : t.state.canView t.reads a c = .ok true) (hx : 0 < x) :
    (∃ received, ForwardWalk
        (fun after => t.messagesHTTP a c messagePageLimit versioned limit after 0) x received ∧
      received.Perm ((t.readable a c).filter fun r => decide (x < (r.1 : Int)))) ↔
      Paging.Separated rowId (pageSize messagePageLimit limit)
        (ordered ((t.readable a c).filter fun r => decide (x < (r.1 : Int)))) := by
  have hdistinct := distinct_readable t a c
  have hsame := ordered_perm ((t.readable a c).filter fun r => decide (x < (r.1 : Int)))
  have hsplit : Paging.after rowId (ordered (t.readable a c)) x =
      ordered ((t.readable a c).filter fun r => decide (x < (r.1 : Int))) ++ [] := by
    rw [List.append_nil]
    exact (ordered_filter hdistinct _).symm
  have hperm : ∀ {received}, Paging.Walk rowId (pageSize messagePageLimit limit)
      (ordered (t.readable a c)) x received → _ := fun h =>
    h.perm_iff (pageSize_spec messagePageLimit limit).1 (nodup_ordered hdistinct) hsplit
  constructor
  · intro ⟨received, h, hreceived⟩
    have hwalk := (forwardWalk_iff hview hx).mp h
    exact ((hperm hwalk).mp (hreceived.trans hsame.symm)).1
  · intro hseparated
    obtain ⟨received, hwalk⟩ := Paging.Walk.exists rowId (pageSize messagePageLimit limit)
      (ordered (t.readable a c)) x
    refine ⟨received, (forwardWalk_iff hview hx).mpr hwalk, ?_⟩
    exact ((hperm hwalk).mpr ⟨hseparated, fun m hm => (by cases hm)⟩).trans hsame

theorem forward_iff (hview : t.state.canView t.reads a c = .ok true) :
    (∃ received, ForwardWalk
        (fun after => t.messagesHTTP a c messagePageLimit versioned limit after 0) x received ∧
      received.Perm ((t.readable a c).filter fun r => decide (x < (r.1 : Int)))) ↔
      InStep (pageSize messagePageLimit limit) x (t.readable a c) := by
  unfold InStep
  by_cases hx : 0 < x
  · rw [if_pos hx]
    exact forward_iff_of_pos hview hx
  have hn := (pageSize_spec messagePageLimit limit).1
  have hnodup := nodup_ordered (distinct_readable t a c)
  have hall : (t.readable a c).filter (fun r => decide (x < (r.1 : Int))) = t.readable a c :=
    List.filter_eq_self.mpr fun r hr => by
      have hpositive : 0 < (r.1 : Int) := rowId_pos hr
      exact decide_eq_true (by omega)
  rw [if_neg hx, hall]
  dsimp only
  have hsorted := List.take_append_drop
    ((t.readable a c).length - pageSize messagePageLimit limit) (ordered (t.readable a c))
  have hstep := fun last hlast received =>
    @forwardWalk_newest_iff t a c messagePageLimit versioned limit x received hview (by omega)
      last hlast
  obtain ⟨p, hp, hresults⟩ :=
    @messagesHTTP_newest t a c hview messagePageLimit versioned limit x (by omega)
  have hperm := ordered_perm (t.readable a c)
  have hempty : (ordered (t.readable a c)).drop
      ((t.readable a c).length - pageSize messagePageLimit limit) = [] → t.readable a c = [] := by
    intro hnil
    have hlength := List.drop_eq_nil_iff.mp hnil
    rw [length_ordered] at hlength
    exact List.length_eq_zero_iff.mp (by omega)
  generalize (ordered (t.readable a c)).take
    ((t.readable a c).length - pageSize messagePageLimit limit) = older at *
  generalize (ordered (t.readable a c)).drop
    ((t.readable a c).length - pageSize messagePageLimit limit) = newest at *
  -- The newest page is received, so the walk has to bring what is older.
  have hrest : ∀ last rest, Paging.Walk rowId (pageSize messagePageLimit limit)
      (ordered (t.readable a c)) (rowId last) rest →
        ((newest ++ rest).Perm (t.readable a c) ↔ (∀ m ∈ older, rowId last < rowId m) ∧
          Paging.Separated rowId (pageSize messagePageLimit limit) older ∧
            ∀ m ∈ newest, rowId m ≤ rowId last ∨
              Paging.Passed rowId (pageSize messagePageLimit limit) older m) := by
    intro last rest hwalk
    have hparts : (t.readable a c).Perm (newest ++ older) :=
      hperm.symm.trans (hsorted ▸ List.perm_append_comm)
    rw [← hsorted] at hwalk hnodup
    rw [← hwalk.perm_front_iff hn hnodup, ← @List.perm_append_left_iff _ rest older newest]
    exact ⟨fun h => h.trans hparts, fun h => h.trans hparts.symm⟩
  cases hlast : newest.getLast? with
  | none =>
    have hnil := List.getLast?_eq_none_iff.mp hlast
    refine ⟨fun _ last hsome => (by cases hsome), fun _ => ⟨[], ?_, hempty hnil ▸ List.Perm.nil⟩⟩
    exact ForwardWalk.done x p hp (hresults.trans hnil)
  | some last =>
    constructor
    · intro ⟨received, h, hreceived⟩ last' hlast'
      cases hlast'
      obtain ⟨rest, rfl, hwalk⟩ := (hstep last hlast received).mp h
      exact (hrest last rest hwalk).mp hreceived
    · intro hinstep
      obtain ⟨rest, hwalk⟩ := Paging.Walk.exists rowId (pageSize messagePageLimit limit)
        (ordered (t.readable a c)) (rowId last)
      exact ⟨newest ++ rest, (hstep last hlast _).mpr ⟨rest, rfl, hwalk⟩,
        (hrest last rest hwalk).mpr (hinstep last rfl)⟩

/-! ### The walk back -/

theorem earlier_eq {m : Message} {k : Nat} (hk : t.box.messages.get? k = some m)
    (hc : m.conversation = c) :
    t.earlier a c k = (ordered (t.readable a c)).filter fun r => decide (stamp r < stamp (k, m)) := by
  have hpositive := t.box.positive k m hk
  have hanchor : t.anchor c k = some (k, m) := by
    unfold Moment.anchor
    rw [Int.toNat_natCast, hk, Option.filter_some, if_pos (by simpa using hc)]
    rfl
  unfold Moment.earlier
  rw [hanchor, ← ordered_filter (distinct_readable t a c)]
  refine congrArg ordered (List.filter_congr fun r _ => ?_)
  have hnot : decide ((k : Int) ≤ 0) = false := decide_eq_false (by omega)
  rw [hnot, Bool.false_or, Option.all_some]

variable {moments : Nat → Moment} {i : Nat}

/-- What a walk back promises for the messages that `inside` selects. -/
structure Complete (moments : Nat → Moment) (a c : Nat) (inside : Nat × Message → Bool)
    (received : List (Nat × Message)) : Prop where
  sorted : received.Pairwise fun r r' => stamp r < stamp r'
  within : ∀ r ∈ received, inside r = true ∧ ∃ j, r ∈ (moments j).readable a c
  all : ∀ r, inside r = true → (∀ j, r ∈ (moments j).readable a c) → r ∈ received

/-- One page of a walk back, with what the next ones give. -/
theorem walk_back_page
    (hview : (moments i).state.canView (moments i).reads a c = .ok true) {cursor : Int}
    {inside : Nat × Message → Bool}
    (hearlier : (moments i).earlier a c cursor =
      (ordered ((moments i).readable a c)).filter inside)
    (hdown : ∀ r r', inside r' = true → stamp r < stamp r' → inside r = true)
    (hnext : ∀ m p, m ∈ (moments i).readable a c → inside m = true →
      cursorPages moments a c messagePageLimit limit i cursor = .ok p → p.nextCursor = some m.1 →
        ∃ rest, BackwardWalk (cursorPages moments a c messagePageLimit limit) (i + 1) m.1 rest ∧
          Complete moments a c (fun r => decide (stamp r < stamp m)) rest) :
    ∃ received, BackwardWalk (cursorPages moments a c messagePageLimit limit) i cursor received ∧
      Complete moments a c inside received := by
  have hn := (pageSize_spec messagePageLimit limit).1
  have hpage : cursorPages moments a c messagePageLimit limit i cursor = .ok (newestPage
      (pageSize messagePageLimit limit) ((ordered ((moments i).readable a c)).filter inside)) := by
    rw [← hearlier]
    exact messagesHTTP_backward hview messagePageLimit limit (fun h => absurd h.2 (by omega))
  have hsorted := (ordered_pairwise (distinct_readable (moments i) a c)).filter inside
  have hmem : ∀ {r}, r ∈ (ordered ((moments i).readable a c)).filter inside ↔
      r ∈ (moments i).readable a c ∧ inside r = true := by
    intro r
    rw [List.mem_filter, mem_ordered]
  generalize (ordered ((moments i).readable a c)).filter inside = rows at hpage hsorted hmem
  generalize pageSize messagePageLimit limit = n at hpage hn
  by_cases hmore : n < rows.length
  · have hparts := List.take_append_drop (rows.length - n) rows
    cases hdrop : rows.drop (rows.length - n) with
    | nil =>
      have hlength := List.drop_eq_nil_iff.mp hdrop
      omega
    | cons m later =>
      have hcursor : (newestPage n rows).nextCursor = some m.1 := by
        unfold newestPage
        rw [if_pos hmore, hdrop]
        rfl
      have hresults : (newestPage n rows).results = m :: later := hdrop
      rw [hdrop] at hparts
      rw [← hparts] at hsorted hmem
      obtain ⟨hm, hinside⟩ := hmem.mp (List.mem_append_right _ List.mem_cons_self)
      obtain ⟨rest, hwalk, hrest⟩ := hnext m _ hm hinside hpage hcursor
      obtain ⟨-, hlater, hcross⟩ := List.pairwise_append.mp hsorted
      have hbefore : ∀ r ∈ rest, stamp r < stamp m := fun r hr =>
        of_decide_eq_true (hrest.within r hr).1
      refine ⟨rest ++ (newestPage n rows).results,
        BackwardWalk.more i cursor _ m.1 rest hpage hcursor hwalk, ?_⟩
      rw [hresults]
      constructor
      · refine List.pairwise_append.mpr ⟨hrest.sorted, hlater, fun r hr r' hr' => ?_⟩
        rcases List.mem_cons.mp hr' with rfl | hin
        · exact hbefore r hr
        · exact (hbefore r hr).trans ((List.pairwise_cons.mp hlater).1 r' hin)
      · intro r hr
        rcases List.mem_append.mp hr with hin | hin
        · exact ⟨hdown r m hinside (hbefore r hin), (hrest.within r hin).2⟩
        · obtain ⟨hreadable, hinside'⟩ := hmem.mp (List.mem_append_right _ hin)
          exact ⟨hinside', i, hreadable⟩
      · intro r hr halways
        rcases List.mem_append.mp (hmem.mpr ⟨halways i, hr⟩) with hin | hin
        · refine List.mem_append_left _ (hrest.all r ?_ halways)
          exact decide_eq_true (hcross r hin m List.mem_cons_self)
        · exact List.mem_append_right _ hin
  · -- The page has everything that is left.
    have hall : rows.drop (rows.length - n) = rows := by
      rw [Nat.sub_eq_zero_of_le (by omega), List.drop_zero]
    have hlast := BackwardWalk.last i cursor _ hpage (if_neg hmore)
    refine ⟨_, hlast, ?_⟩
    show Complete moments a c inside (rows.drop (rows.length - n))
    rw [hall]
    exact ⟨hsorted, fun r hr => ⟨(hmem.mp hr).2, i, (hmem.mp hr).1⟩,
      fun r hr halways => hmem.mpr ⟨halways i, hr⟩⟩

/-- A walk back from an anchor ends, as every anchor is older than the one before. -/
theorem walk_back_anchor
    (hview : ∀ j, (moments j).state.canView (moments j).reads a c = .ok true)
    (hkept : AnchorsKept moments a c messagePageLimit limit) {k : Nat} {m : Message}
    (hasks : Asks (cursorPages moments a c messagePageLimit limit) i k)
    (hk : (moments i).box.messages.get? k = some m) (hc : m.conversation = c) :
    ∃ received, BackwardWalk (cursorPages moments a c messagePageLimit limit) i k received ∧
      Complete moments a c (fun r => decide (stamp r < stamp (k, m))) received := by
  generalize hstamp : stamp (k, m) = time
  induction time using WellFoundedLT.induction generalizing i k m with
  | _ time ih =>
    refine walk_back_page (hview i) (hstamp ▸ earlier_eq hk hc) (fun r r' hr' hlt => ?_) ?_
    · exact decide_eq_true (hlt.trans (of_decide_eq_true hr'))
    · intro m' p hm' hinside hpage hnext
      obtain ⟨hrow, hfound⟩ := List.mem_filter.mp hm'
      have hconversation : m'.2.conversation = c := by
        simp only [Bool.and_eq_true, beq_iff_eq] at hfound
        exact hfound.1.1
      have hnextRow : (moments (i + 1)).box.messages.get? m'.1 = some m'.2 :=
        (hkept i k p m'.1 hasks hpage hnext).trans (KeyMap.mem_entries_iff.mp hrow)
      exact ih (stamp m') (of_decide_eq_true hinside) (Asks.next i k p m'.1 hasks hpage hnext)
        hnextRow hconversation rfl

theorem backward_holds
    (hview : ∀ j, (moments j).state.canView (moments j).reads a c = .ok true)
    (hkept : AnchorsKept moments a c messagePageLimit limit) :
    ∃ received, BackwardWalk (cursorPages moments a c messagePageLimit limit) 0 0 received ∧
      Complete moments a c (fun _ => true) received := by
  refine walk_back_page (hview 0) ?_ (fun _ _ _ _ => rfl) fun m p hm _ hpage hnext => ?_
  · unfold Moment.earlier
    rw [ordered_filter (distinct_readable _ _ _)]
    exact List.filter_congr fun r _ => rfl
  · obtain ⟨hrow, hfound⟩ := List.mem_filter.mp hm
    have hconversation : m.2.conversation = c := by
      simp only [Bool.and_eq_true, beq_iff_eq] at hfound
      exact hfound.1.1
    exact walk_back_anchor hview hkept (Asks.next 0 0 p m.1 Asks.first hpage hnext)
      ((hkept 0 0 p m.1 Asks.first hpage hnext).trans (KeyMap.mem_entries_iff.mp hrow))
      hconversation

/-- The walks keep their promises exactly when the ids are in step with the order. -/
theorem walk_law (moments : Nat → Moment) (a c : Nat) (messagePageLimit : Int) (versioned : Bool)
    (limit : Option Int) (x : Int)
    (hview : ∀ j, (moments j).state.canView (moments j).reads a c = .ok true) :
    WalkLaw moments a c messagePageLimit versioned limit x ↔
      InStep (pageSize messagePageLimit limit) x ((moments 0).readable a c) := by
  constructor
  · intro hlaw
    exact (forward_iff (hview 0)).mp hlaw.forward
  · intro hinstep
    refine ⟨(forward_iff (hview 0)).mpr hinstep, fun hkept => ?_⟩
    obtain ⟨received, hwalk, hcomplete⟩ := backward_holds hview hkept
    exact ⟨received, hwalk, hcomplete.sorted, fun r hr => (hcomplete.within r hr).2,
      fun r halways => hcomplete.all r rfl halways⟩

end

/-- The chat of the two teenagers, with messages to both. -/
def chatting (messages : KeyMap Nat Message)
    (positive : ∀ e ∈ messages.entries, 0 < e.1) : Moment :=
  ⟨after ⟨256⟩ opened, sampleReads,
    ⟨messages, fun id m h => positive (id, m) (KeyMap.mem_entries_iff.mpr h)⟩⟩

/-- Three messages, with ids in the order of their times. -/
def inOrder : Moment :=
  chatting ⟨[(1, ⟨1, 10, [1, 2]⟩), (2, ⟨1, 20, [1, 2]⟩), (3, ⟨1, 30, [1, 2]⟩)], by decide⟩
    (by decide)

theorem walk_inOrder : WalkLaw (fun _ => inOrder) 2 1 50 true (some 1) 1 := by
  refine (walk_law _ 2 1 50 true (some 1) 1 fun _ => by decide +kernel).mpr ?_
  refine Paging.separated_of_pairwise ?_
  decide +kernel

/-- A message whose transaction started first, and which was written last. -/
def overtaken : Moment :=
  chatting ⟨[(1, ⟨1, 5, [1, 2]⟩), (2, ⟨1, 20, [1, 2]⟩), (3, ⟨1, 10, [1, 2]⟩)], by decide⟩
    (by decide)

/-- A client that has seen the first message gets the third one, and never the second. One without a
position gets the newest message, and never those before it. -/
theorem messages_skipped : ¬WalkLaw (fun _ => overtaken) 2 1 50 true (some 1) 1 ∧
    ¬WalkLaw (fun _ => inOrder) 2 1 50 true (some 1) 0 := by
  have hsize : pageSize 50 (some 1) = 1 := by decide
  constructor
  · intro hlaw
    have hview : overtaken.state.canView overtaken.reads 2 1 = .ok true := by decide +kernel
    have hseparated := (forward_iff_of_pos hview (by decide)).mp hlaw.forward
    have hpending : ordered ((overtaken.readable 2 1).filter fun r =>
        decide ((1 : Int) < (r.1 : Int))) =
          [(3, ⟨1, 10, [1, 2]⟩), (2, ⟨1, 20, [1, 2]⟩)] := by decide +kernel
    rw [hpending, hsize] at hseparated
    have hlater := (hseparated 0 (3, ⟨1, 10, [1, 2]⟩) rfl).2 (2, ⟨1, 20, [1, 2]⟩) (by simp)
    exact absurd hlater (by decide)
  · intro hlaw
    have hview : inOrder.state.canView inOrder.reads 2 1 = .ok true := by decide +kernel
    have hinstep := (forward_iff hview).mp hlaw.forward
    have hrows : inOrder.readable 2 1 =
        [(1, ⟨1, 10, [1, 2]⟩), (2, ⟨1, 20, [1, 2]⟩), (3, ⟨1, 30, [1, 2]⟩)] := by decide +kernel
    have hsorted : ordered (inOrder.readable 2 1) = inOrder.readable 2 1 := by decide +kernel
    unfold InStep at hinstep
    rw [if_neg (by decide), hsize, hsorted, hrows] at hinstep
    have holder := (hinstep (3, ⟨1, 30, [1, 2]⟩) rfl).1 (1, ⟨1, 10, [1, 2]⟩) (by simp)
    exact absurd holder (by decide)

end SocialActivities.Messaging.Go
