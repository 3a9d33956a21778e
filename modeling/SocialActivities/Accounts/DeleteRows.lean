import Mathlib.Data.List.Sort
import SocialActivities.Lib.Checked
import SocialActivities.Lib.KeyMap

/-!
# `SocialActivities.Accounts.DeleteRows`: the deletion of rows (`internal/accounts/erase.go`)

`deleteRows` deletes rows of a table together with the rows that refer to them, by the policies that the models
of the reference declare (`deletionPolicy`). It goes depth first along the foreign keys, in order of table and
column, and knows the tables that it is in. A row has its references, by column, and the rest of its columns
(`data`). A recursion that is not at its end when its fuel is gone is stuck.
-/

namespace SocialActivities.Accounts.Erasure

open Lib

/-! ### The policies -/

inductive Policy where
  | cascade
  | setNull
  | protect
  deriving DecidableEq

/-- `deletionPolicy` (`delete_policy.go`), by table and column. -/
def deletionPolicy : List (String × Policy) :=
  [("accounts_ageassurance.user_id", .cascade), ("accounts_guardianguardrail.relationship_id", .cascade),
    ("accounts_guardianlinkinvite.guardian_id", .cascade), ("accounts_guardianlinkinvite.ward_id", .cascade),
    ("accounts_guardianrelationship.consent_id", .setNull), ("accounts_guardianrelationship.guardian_id", .cascade),
    ("accounts_guardianrelationship.ward_id", .cascade), ("accounts_identitybinding.user_id", .setNull),
    ("accounts_parentalconsent.minor_id", .cascade), ("accounts_signatureavatar.user_id", .cascade),
    ("accounts_user_groups.user_id", .cascade), ("accounts_user_user_permissions.user_id", .cascade),
    ("booking_booking.activity_id", .setNull), ("booking_booking.place_id", .protect),
    ("booking_booking.user_id", .cascade), ("booking_placebookinginfo.place_id", .cascade),
    ("communities_community.activity_type_id", .protect), ("communities_community.area_id", .protect),
    ("communities_community.category_id", .protect), ("connections_connection.addressee_id", .cascade),
    ("connections_connection.requester_id", .cascade), ("django_admin_log.user_id", .cascade),
    ("donations_campaign.partner_id", .setNull), ("donations_civicoutcome.partner_id", .setNull),
    ("donations_donation.campaign_id", .setNull), ("donations_donation.donor_id", .setNull),
    ("donations_inkindcontribution.partner_id", .setNull), ("donations_spendentry.campaign_id", .setNull),
    ("events_event.activity_type_id", .setNull), ("events_event.place_id", .cascade),
    ("events_eventfeed.activity_type_id", .setNull), ("events_eventfeed.place_id", .setNull),
    ("events_eventreport.event_id", .cascade), ("events_eventreport.reporter_id", .cascade),
    ("media_activitycover.activity_id", .cascade), ("media_activitycover.uploader_id", .cascade),
    ("media_attachment.post_id", .cascade), ("media_attachment.uploader_id", .cascade),
    ("media_photo.thread_id", .cascade), ("media_photo.uploader_id", .cascade),
    ("messaging_conversation.creator_id", .setNull), ("messaging_keyverification.subject_id", .cascade),
    ("messaging_keyverification.verifier_id", .cascade), ("messaging_message.conversation_id", .cascade),
    ("messaging_message.sender_id", .setNull), ("messaging_messagekey.message_id", .cascade),
    ("messaging_messagekey.recipient_id", .cascade), ("messaging_participant.conversation_id", .cascade),
    ("messaging_participant.invited_by_id", .setNull), ("messaging_participant.user_id", .cascade),
    ("messaging_publickey.user_id", .cascade), ("notifications_notification.recipient_id", .cascade),
    ("notifications_notificationpreference.user_id", .cascade), ("places_accesspreference.user_id", .cascade),
    ("places_activityedgevote.edge_id", .cascade), ("places_activityedgevote.user_id", .cascade),
    ("places_approvedchildvenue.approved_by_id", .setNull), ("places_approvedchildvenue.place_id", .cascade),
    ("places_opennowreport.place_id", .cascade), ("places_opennowreport.reporter_id", .cascade),
    ("places_partner.place_id", .setNull), ("places_placeactivity.activity_id", .protect),
    ("places_placeactivity.place_id", .cascade), ("places_placeclaim.claimant_id", .cascade),
    ("places_placeclaim.decided_by_id", .setNull), ("places_placeclaim.partner_id", .setNull),
    ("places_placeclaim.place_id", .cascade), ("places_placeclosurereport.place_id", .cascade),
    ("places_placeclosurereport.reporter_id", .cascade), ("places_placecorrection.place_id", .cascade),
    ("places_placecorrection.proposer_id", .cascade), ("places_placecorrectionconfirmation.correction_id", .cascade),
    ("places_placecorrectionconfirmation.user_id", .cascade), ("places_placecover.place_id", .cascade),
    ("places_placecover.uploaded_by_id", .setNull), ("places_placefactvote.place_id", .cascade),
    ("places_placefactvote.user_id", .cascade), ("recommendations_activityembedding.activity_id", .cascade),
    ("recommendations_topicpreference.category_id", .cascade), ("recommendations_topicpreference.user_id", .cascade),
    ("recommendations_userinterest.activity_type_id", .cascade), ("recommendations_userinterest.user_id", .cascade),
    ("safety_auditlog.actor_id", .setNull), ("safety_authorityreferral.referred_by_id", .setNull),
    ("safety_authorityreferral.report_id", .setNull), ("safety_block.blocked_id", .cascade),
    ("safety_block.blocker_id", .cascade), ("safety_concernreview.handled_by_id", .setNull),
    ("safety_concernreview.post_id", .setNull), ("safety_concernreview.subject_user_id", .setNull),
    ("safety_moderationaction.moderator_id", .setNull), ("safety_moderationaction.report_id", .setNull),
    ("safety_moderationaction.target_type_id", .cascade), ("safety_moderationappeal.action_id", .cascade),
    ("safety_moderationappeal.appellant_id", .setNull), ("safety_moderationappeal.decided_by_id", .setNull),
    ("safety_report.handled_by_id", .setNull), ("safety_report.reporter_id", .setNull),
    ("safety_report.target_type_id", .cascade), ("saved_searches_savedsearch.activity_type_id", .protect),
    ("saved_searches_savedsearch.area_id", .protect), ("saved_searches_savedsearch.category_id", .protect),
    ("saved_searches_savedsearch.user_id", .cascade), ("saved_searches_savedsearchgaugematch.interest_id", .cascade),
    ("saved_searches_savedsearchgaugematch.user_id", .cascade),
    ("saved_searches_savedsearchmatch.activity_id", .cascade), ("saved_searches_savedsearchmatch.user_id", .cascade),
    ("social_activity.activity_type_id", .protect), ("social_activity.owner_id", .cascade),
    ("social_activity.place_id", .protect), ("social_activity.series_id", .setNull),
    ("social_activityinterest.activity_type_id", .protect),
    ("social_activityinterest.converted_activity_id", .setNull), ("social_activityinterest.place_id", .protect),
    ("social_activityinterest.proposer_id", .cascade), ("social_activityseries.activity_type_id", .protect),
    ("social_activityseries.owner_id", .cascade), ("social_activityseries.place_id", .protect),
    ("social_group.activity_type_id", .protect), ("social_group.area_id", .protect),
    ("social_group.category_id", .protect), ("social_group.owner_id", .cascade),
    ("social_groupmembership.group_id", .cascade), ("social_groupmembership.user_id", .cascade),
    ("social_joinvote.membership_id", .cascade), ("social_joinvote.voter_id", .cascade),
    ("social_membership.activity_id", .cascade), ("social_membership.user_id", .cascade),
    ("social_placeconfirmation.proposal_id", .cascade), ("social_placeconfirmation.user_id", .cascade),
    ("social_post.author_id", .cascade), ("social_post.reply_to_id", .setNull),
    ("social_post.shared_activity_id", .setNull), ("social_post.shared_event_id", .setNull),
    ("social_post.shared_place_id", .setNull), ("social_post.thread_id", .cascade),
    ("social_postconcern.post_id", .cascade), ("social_postconcern.user_id", .cascade),
    ("social_postconcernstate.post_id", .cascade), ("social_postdissent.post_id", .cascade),
    ("social_postdissent.user_id", .cascade), ("social_postreaction.post_id", .cascade),
    ("social_postreaction.user_id", .cascade), ("social_postsentimentfooter.post_id", .cascade),
    ("social_thread.activity_id", .cascade), ("social_thread.group_id", .cascade),
    ("social_userplaceproposal.place_id", .cascade), ("social_userplaceproposal.proposer_id", .cascade),
    ("taxonomy_activitycategory.parent_id", .protect), ("taxonomy_activityrelation.source_id", .cascade),
    ("taxonomy_activityrelation.target_id", .cascade), ("taxonomy_activitytype.category_id", .protect),
    ("taxonomy_activitytype.parent_id", .protect), ("authtoken_token.user_id", .cascade),
    ("places_place_activities.activitytype_id", .cascade), ("places_place_activities.place_id", .cascade),
    ("social_activity_secondary_types.activity_id", .cascade),
    ("social_activity_secondary_types.activitytype_id", .cascade),
    ("social_activityinterest_interested_users.activityinterest_id", .cascade),
    ("social_activityinterest_interested_users.user_id", .cascade)]

/-! ### The catalog and the rows -/

/-- A foreign key of one column: where it is, its action on a deletion, and the table it refers to. -/
structure Relation where
  schema : String
  table : String
  column : String
  delete : String
  target : String
  deriving DecidableEq

/-- What the catalog says: the foreign keys, the current schema, and whether a table has a primary key of one
column. -/
structure Catalog where
  relations : List Relation
  currentSchema : String
  keyed : String → Bool

structure Row (δ : Type) where
  refs : String → Option Nat
  data : δ

/-- The rows by table and primary key. -/
abbrev Database (δ : Type) := KeyMap (String × Nat) (Row δ)

inductive Error where
  | forbidden
  | invalid
  | unreviewed
  | crossSchema
  | cycle
  | errNoRows
  | stuck
  deriving DecidableEq

/-- The order of the query: by table, then by column. -/
def Relation.atMost (a b : Relation) : Prop := a.table < b.table ∨ a.table = b.table ∧ a.column ≤ b.column

instance : DecidableRel Relation.atMost := fun _ _ => inferInstanceAs (Decidable (_ ∨ _))

/-- The foreign keys to a table. -/
def Catalog.references (c : Catalog) (table : String) : List Relation :=
  (c.relations.filter fun ref => ref.target == table).insertionSort Relation.atMost

/-- `deletionPolicy[ref.Table+"."+ref.Column]`. -/
def Relation.policy (ref : Relation) : Option Policy := deletionPolicy.lookup (ref.table ++ "." ++ ref.column)

/-- The tables with tokens have a key that is no number. -/
def tokenTable : String := "authtoken_token"

variable {δ : Type}

/-- `column = ANY(ids)`. -/
def refersTo (ref : Relation) (ids : List Nat) (key : String × Nat) (row : Row δ) : Bool :=
  key.1 == ref.table && (row.refs ref.column).any ids.contains

/-- `SET column = NULL`. -/
def Row.nullify (row : Row δ) (column : String) : Row δ :=
  { row with refs := fun name => if name = column then none else row.refs name }

/-! ### deleteRows -/

/-- The cases of the `switch` over the policy. -/
def applyPolicy (recurse : Database δ → String → List Nat → Except Error (Database δ)) (c : Catalog)
    (ids : List Nat) (db : Database δ) (ref : Relation) : Policy → Except Error (Database δ)
  | .setNull => .ok (db.mapRows fun key row => if refersTo ref ids key row then row.nullify ref.column else row)
  | .cascade =>
    if ref.table = tokenTable then .ok (db.removeIf (refersTo ref ids))
    else do
      need Error.errNoRows (c.keyed ref.table)
      recurse db ref.table ((db.keysWhere (refersTo ref ids)).map Prod.snd)
  | .protect => do
    need Error.forbidden (!db.anyRow (refersTo ref ids))
    pure db

/-- What the loop does with a foreign key. -/
def follow (recurse : Database δ → String → List Nat → Except Error (Database δ)) (c : Catalog)
    (ids : List Nat) (db : Database δ) (ref : Relation) : Except Error (Database δ) :=
  -- The database itself enforces these actions.
  if ref.delete = "c" ∨ ref.delete = "n" then .ok db
  else do
    let policy ← ref.policy.elim (.error Error.unreviewed) .ok
    need Error.crossSchema (ref.schema == c.currentSchema)
    applyPolicy recurse c ids db ref policy

/-- `strings.ContainsAny(table, ".\x00")`. -/
def isQualified (table : String) : Bool := table.toList.any fun ch => ch == '.' || ch == '\x00'

def deleteRows (c : Catalog) : Nat → Database δ → String → List Nat → List String → Except Error (Database δ)
  | 0, _, _, _, _ => .error .stuck
  | fuel + 1, db, table, ids, seen =>
    if ids = [] then .ok db
    else if seen.contains table then .error .cycle
    else do
      let recurse := fun db child childIDs => deleteRows c fuel db child childIDs (table :: seen)
      let db ← (c.references table).foldlM (follow recurse c ids) db
      need Error.invalid (!isQualified table)
      need Error.errNoRows (c.keyed table)
      pure (db.removeIf fun key _ => key.1 == table && ids.contains key.2)

/-- A search that no foreign key of the catalog can make go on for longer. -/
def enough (c : Catalog) : Nat := c.relations.length + 2

end SocialActivities.Accounts.Erasure
