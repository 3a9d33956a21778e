import SocialActivities.Feeds.Fields
import SocialActivities.Lib.Sha256
import SocialActivities.Snapshots.Stamp

/-!
# `SocialActivities.Feeds.Identity`: the identity of what a feed delivers (Go and Python)

The parsers cut a `UID` to 200 characters, and to 150 before the date of an occurrence; the sync puts the
feed before it. Go replaces what is longer than 200 characters then by a digest.

A `Delivered` event keeps the `UID` as the feed has it. `rawId_eq_iff` says when two of them get the same
text from a parser, `Go.storedId_eq_iff` and `Py.storedId_eq_iff` when they get the same identity.
-/

namespace SocialActivities.Feeds

open Lib Lib.Calendar Lib.Digits
open Audit (pad)

/-- How instants become dates. -/
structure Dating where
  dayOf : Int → Nat
  dayText : Nat → Text
  /-- Different days have different texts. -/
  dayText_injective : Function.Injective dayText
  /-- The colon before the date is the last one. -/
  no_colon : ∀ day, ':' ∉ dayText day

/-- The text that a parser gives an event. -/
def rawId (dating : Dating) (uid : Text) (recurring : Bool) (starts : Int) : Text :=
  if recurring then occurrenceId (fun x => dating.dayText (dating.dayOf x)) (uid.take 200) starts
  else uid.take 200

/-- An event of a parser, with the `UID` that the feed has for it. -/
structure Delivered (dating : Dating) where
  uid : Text
  recurring : Bool
  event : RawEvent
  id_eq : event.externalId = rawId dating uid recurring event.starts

def Delivered.day {dating : Dating} (x : Delivered dating) : Nat := dating.dayOf x.event.starts

/-! ### Dates -/

theorem pad_injective {k m n : Nat} (hm : m < 10 ^ k) (hn : n < 10 ^ k) (h : pad k m = pad k n) : m = n := by
  have hfold := Snapshots.foldl_pad k m
  rw [h, Snapshots.foldl_pad, Nat.mod_eq_of_lt hm, Nat.mod_eq_of_lt hn] at hfold
  exact hfold.symm

theorem not_mem_pad {c : Char} (hc : c.isDigit = false) (k n : Nat) : c ∉ pad k n := by
  intro hmem
  have hdigit := List.all_eq_true.mp (Snapshots.all_isDigit_pad k n) c hmem
  rw [hc] at hdigit
  cases hdigit

theorem dateText_injective {yearText : Int → Text} (hyear : Function.Injective yearText) (before : Int) :
    Function.Injective (dateText yearText before) := by
  intro day day' h
  have hparts : ∀ {a a' b b' c c' : Text}, b.length = 2 → b'.length = 2 → c.length = 2 → c'.length = 2 →
      a ++ b ++ c = a' ++ b' ++ c' → a = a' ∧ b = b' ∧ c = c' := by
    intro a a' b b' c c' hb hb' hc hc' heq
    have ⟨hab, hcc⟩ := List.append_inj' heq (hc.trans hc'.symm)
    have ⟨haa, hbb⟩ := List.append_inj' hab (hb.trans hb'.symm)
    exact ⟨haa, hbb, hcc⟩
  have ⟨hyears, hmonths, hdays⟩ := hparts (Snapshots.length_pad 2 _) (Snapshots.length_pad 2 _)
    (Snapshots.length_pad 2 _) (Snapshots.length_pad 2 _) h
  have hy := hyear hyears
  have hstart := monthStart_monthOf_le day
  have hstart' := monthStart_monthOf_le day'
  have hend := lt_monthStart_succ day
  have hend' := lt_monthStart_succ day'
  have hlength := monthLength_le (monthOf day)
  have hlength' := monthLength_le (monthOf day')
  rw [monthStart_succ] at hend hend'
  have hm := pad_injective (by omega) (by omega) hmonths
  have hd := pad_injective (by omega) (by omega) hdays
  have hk : monthOf day = monthOf day' := by omega
  rw [hk] at hd hstart
  omega

theorem no_colon_dateText {yearText : Int → Text} (hyear : ∀ y, ':' ∉ yearText y) (before : Int) (day : Nat) :
    ':' ∉ dateText yearText before day := by
  unfold dateText
  dsimp only
  rw [List.mem_append, List.mem_append, not_or, not_or]
  exact ⟨⟨hyear _, not_mem_pad (by decide) _ _⟩, not_mem_pad (by decide) _ _⟩

theorem Go.yearText_injective : Function.Injective Go.yearText := by
  have hpadded : ∀ m n : Nat, pad (max 4 (width m)) m = pad (max 4 (width n)) n → m = n := by
    intro m n h
    have hlength := congrArg List.length h
    rw [Snapshots.length_pad, Snapshots.length_pad] at hlength
    rw [hlength] at h
    have hlt : ∀ n : Nat, n < 10 ^ max 4 (width n) := fun n =>
      (lt_pow_width n).trans_le (Nat.pow_le_pow_right (by decide) (Nat.le_max_right _ _))
    exact pad_injective (hlength ▸ hlt m) (hlt n) h
  have hsign : ∀ m n : Nat, '-' :: pad (max 4 (width m)) m ≠ pad (max 4 (width n)) n := fun m n h =>
    not_mem_pad (c := '-') (by decide) _ n (h ▸ List.mem_cons_self)
  intro y z h
  unfold Go.yearText at h
  split at h
  · split at h
    · have := hpadded _ _ (List.cons.inj h).2
      omega
    · exact absurd h (hsign _ _)
  · split at h
    · exact absurd h.symm (hsign _ _)
    · have := hpadded _ _ h
      omega

theorem Go.no_colon_yearText (y : Int) : ':' ∉ Go.yearText y := by
  unfold Go.yearText
  split
  · rw [List.mem_cons, not_or]
    exact ⟨by decide, not_mem_pad (by decide) _ _⟩
  · exact not_mem_pad (by decide) _ _

def Go.dating : Dating where
  dayOf := Go.dayOf
  dayText := dateText Go.yearText 400
  dayText_injective := dateText_injective Go.yearText_injective 400
  no_colon := no_colon_dateText Go.no_colon_yearText 400

/-- The years of a platform: different years have different texts, without a colon. -/
structure Years where
  text : Int → Text
  injective : Function.Injective text
  no_colon : ∀ y, ':' ∉ text y

/-- Years with four digits or more. -/
def Years.padded : Years := ⟨Go.yearText, Go.yearText_injective, Go.no_colon_yearText⟩

def Py.dating (years : Years) : Dating where
  dayOf := Py.dayOf
  dayText := dateText years.text 0
  dayText_injective := dateText_injective years.injective 0
  no_colon := no_colon_dateText years.no_colon 0

/-! ### The text of a parser -/

section RawId

variable {dating : Dating}

/-- Two events get the same text: single ones by the first 200 characters of their `UID`, occurrences of a
rule by the first 150 and the date, and a single event whose `UID` looks like an occurrence. -/
def Alike (x y : Delivered dating) : Prop :=
  match x.recurring, y.recurring with
  | false, false => x.uid.take 200 = y.uid.take 200
  | true, true => x.uid.take 150 = y.uid.take 150 ∧ x.day = y.day
  | false, true => x.uid.take 200 = y.uid.take 150 ++ ':' :: dating.dayText y.day
  | true, false => y.uid.take 200 = x.uid.take 150 ++ ':' :: dating.dayText x.day

variable {x : Delivered dating}

theorem rawId_eq_nil_iff : x.event.externalId = [] ↔ x.uid = [] := by
  have htake : x.uid.take 200 = [] ↔ x.uid = [] := by simp
  rw [x.id_eq]
  unfold rawId occurrenceId
  cases x.recurring with
  | false => exact htake
  | true =>
    rw [if_pos rfl]
    split
    · next h => exact ⟨fun _ => htake.mp h, fun _ => rfl⟩
    · next h => exact ⟨fun heq => absurd heq (by simp), fun hnil => absurd (htake.mpr hnil) h⟩

theorem rawId_of_recurring (hr : x.recurring = true) (huid : x.uid ≠ []) :
    x.event.externalId = x.uid.take 150 ++ ':' :: dating.dayText x.day := by
  rw [x.id_eq, rawId, hr, if_pos rfl, occurrenceId, if_neg (by simpa using huid), List.take_take]
  rfl

theorem rawId_of_single (hr : x.recurring = false) :
    x.event.externalId = x.uid.take 200 := by
  rw [x.id_eq, rawId, hr]
  rfl

theorem first_colon_inj {a a' b b' : Text} (ha : ':' ∉ a) (ha' : ':' ∉ a')
    (h : a ++ ':' :: b = a' ++ ':' :: b') : a = a' ∧ b = b' := by
  induction a generalizing a' with
  | nil =>
    cases a' with
    | nil => exact ⟨rfl, (List.cons.inj h).2⟩
    | cons => exact absurd ((List.cons.inj h).1 ▸ List.mem_cons_self) ha'
  | cons c a ih =>
    cases a' with
    | nil => exact absurd ((List.cons.inj h).1 ▸ List.mem_cons_self) ha
    | cons c' =>
      have ⟨hc, hrest⟩ := List.cons.inj h
      have ⟨haa, hbb⟩ := ih (mt (List.mem_cons_of_mem c) ha) (mt (List.mem_cons_of_mem c') ha') hrest
      exact ⟨by rw [hc, haa], hbb⟩

theorem last_colon_inj {a a' b b' : Text} (hb : ':' ∉ b) (hb' : ':' ∉ b')
    (h : a ++ ':' :: b = a' ++ ':' :: b') : a = a' ∧ b = b' := by
  have hrev := congrArg List.reverse h
  rw [List.reverse_append, List.reverse_append, List.reverse_cons, List.reverse_cons, List.append_assoc,
    List.append_assoc, List.singleton_append, List.singleton_append] at hrev
  have ⟨hbb, haa⟩ := first_colon_inj (mt List.mem_reverse.mp hb) (mt List.mem_reverse.mp hb') hrev
  exact ⟨List.reverse_injective haa, List.reverse_injective hbb⟩

theorem rawId_eq_iff {y : Delivered dating} (hx : x.uid ≠ []) (hy : y.uid ≠ []) :
    x.event.externalId = y.event.externalId ↔ Alike x y := by
  unfold Alike
  cases hrx : x.recurring with
  | false =>
    rw [rawId_of_single hrx]
    cases hry : y.recurring with
    | false => rw [rawId_of_single hry]
    | true => rw [rawId_of_recurring hry hy]
  | true =>
    rw [rawId_of_recurring hrx hx]
    cases hry : y.recurring with
    | false =>
      rw [rawId_of_single hry]
      exact eq_comm
    | true =>
      rw [rawId_of_recurring hry hy]
      constructor
      · intro h
        have ⟨huid, hday⟩ := last_colon_inj (dating.no_colon _) (dating.no_colon _) h
        exact ⟨huid, dating.dayText_injective hday⟩
      · rintro ⟨huid, hday⟩
        rw [huid, hday]

end RawId

/-! ### The identity in the table -/

/-- The name of a feed, before the identities of its events. -/
def feedName (feed : Nat) : Text := "feed".toList ++ (digits feed).map digitChar ++ [':']

theorem feedName_append_inj {feed feed' : Nat} {a b : Text} (h : feedName feed ++ a = feedName feed' ++ b) :
    feed = feed' ∧ a = b := by
  have hrest : (digits feed).map digitChar ++ ':' :: a = (digits feed').map digitChar ++ ':' :: b := by
    unfold feedName at h
    simpa only [List.append_assoc, List.singleton_append, List.append_cancel_left_eq] using h
  have hcolon : ':'.isDigit = false := by decide
  have ⟨hdigits, hcolon⟩ := @append_inj _ _ (':' :: a) (':' :: b) hcolon hcolon hrest
  exact ⟨digits_injective hdigits, (List.cons.inj hcolon).2⟩

/-- The length of `events_event.external_id`. -/
def idLength : Nat := 200

namespace Go

def feedExternalID (feed : Nat) (uid : Text) : Text :=
  let value := feedName feed ++ uid
  if value.length ≤ idLength then value else feedName feed ++ ("sha256:".toList ++ sha256 uid)

/-- The identity is too long with the feed before it. -/
def Long (feed : Nat) (uid : Text) : Prop := idLength < (feedName feed ++ uid).length

/-- One text looks like the digest of the other. -/
def Digests (feed : Nat) (a b : Text) : Prop :=
  Long feed a ∧ ¬Long feed b ∧ b = "sha256:".toList ++ sha256 a

theorem feedExternalID_eq_iff {feed feed' : Nat} {a b : Text} (hsha : sha256 a = sha256 b → a = b) :
    feedExternalID feed a = feedExternalID feed' b ↔
      feed = feed' ∧ (a = b ∨ Digests feed a b ∨ Digests feed b a) := by
  unfold feedExternalID Digests Long
  dsimp only
  constructor
  · intro h
    by_cases ha : (feedName feed ++ a).length ≤ idLength
    · rw [if_pos ha] at h
      split at h
      · have ⟨hfeed, hab⟩ := feedName_append_inj h
        exact ⟨hfeed, Or.inl hab⟩
      · next hb =>
        have ⟨hfeed, hab⟩ := feedName_append_inj h
        rw [← hfeed] at hb
        exact ⟨hfeed, Or.inr (Or.inr ⟨Nat.lt_of_not_le hb, Nat.not_lt.mpr ha, hab⟩)⟩
    · rw [if_neg ha] at h
      split at h
      · next hb =>
        have ⟨hfeed, hab⟩ := feedName_append_inj h
        rw [← hfeed] at hb
        exact ⟨hfeed, Or.inr (Or.inl ⟨Nat.lt_of_not_le ha, Nat.not_lt.mpr hb, hab.symm⟩)⟩
      · have ⟨hfeed, hab⟩ := feedName_append_inj h
        exact ⟨hfeed, Or.inl (hsha (List.append_cancel_left hab))⟩
  · rintro ⟨rfl, rfl | ⟨ha, hb, hab⟩ | ⟨hb, ha, hab⟩⟩
    · rfl
    · rw [if_neg (Nat.not_le.mpr ha), if_pos (Nat.not_lt.mp hb), hab]
    · rw [if_neg (Nat.not_le.mpr hb), if_pos (Nat.not_lt.mp ha), hab]

end Go

end SocialActivities.Feeds
