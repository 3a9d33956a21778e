import SocialActivities.Accounts.ErasureClosure
import SocialActivities.Accounts.LoginReservations
import SocialActivities.Accounts.OneAccount
import SocialActivities.AgentApi.RateLimiter
import SocialActivities.Audit.Checkpoint
import SocialActivities.Audit.GoLog
import SocialActivities.Audit.Legacy
import SocialActivities.Audit.PyLog
import SocialActivities.Audit.SharedLog
import SocialActivities.Budgets.FixedWindow
import SocialActivities.Budgets.Reserve
import SocialActivities.Budgets.Window
import SocialActivities.Chat.Delivery
import SocialActivities.Donations.Amounts
import SocialActivities.Events.Stale
import SocialActivities.Feeds.Deliveries
import SocialActivities.Feeds.Expansion
import SocialActivities.Jobs.Fanout
import SocialActivities.Jobs.Reminders
import SocialActivities.Media.Evidence
import SocialActivities.Media.HeaderBounds
import SocialActivities.Messaging.GoBasis
import SocialActivities.Messaging.Pages
import SocialActivities.Messaging.PyPosts
import SocialActivities.Ops.Wakeups
import SocialActivities.Places.Carriers
import SocialActivities.Places.Confirmed
import SocialActivities.Places.EdgeVotes
import SocialActivities.Places.PyDedup
import SocialActivities.Places.Reports
import SocialActivities.Places.ReviewRuns
import SocialActivities.Places.Symmetry
import SocialActivities.Roedu.Reads
import SocialActivities.Safety.GoSanctions
import SocialActivities.Safety.PySanctions
import SocialActivities.Safety.PyVisibility
import SocialActivities.Searches.Complete
import SocialActivities.Snapshots.Publishing
import SocialActivities.Social.ConcernCaps
import SocialActivities.Social.DissentRuns
import SocialActivities.Social.GoConnections
import SocialActivities.Social.GoQuorum
import SocialActivities.Social.GoVotes
import SocialActivities.Social.LiveSignals
import SocialActivities.Social.Masking
import SocialActivities.Social.MentionPings
import SocialActivities.Social.Preview
import SocialActivities.Social.PyThreadPages
import SocialActivities.Social.ReactionPurge
import SocialActivities.Social.Recurrence
import SocialActivities.Social.Rejoin
import SocialActivities.Social.Replies
import SocialActivities.Social.Roles
import SocialActivities.Social.SpawnBatch
import SocialActivities.Social.ThreadPages
