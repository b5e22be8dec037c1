import Shortlink.Links.Transparency
import Shortlink.Auth.Reuse
import Shortlink.Auth.DeadChallenges
import Shortlink.Auth.TokenFamily
import Shortlink.Auth.Guessing
import Shortlink.Auth.LoginEnumeration
import Shortlink.Transaction.Atomicity
import Shortlink.LinkStatistics.LateAccess
import Shortlink.Account.Enumeration
import Shortlink.Account.FailureLimit
import Shortlink.Account.ResendCooldown
import Shortlink.Account.Registration
import Shortlink.Account.ActivationCodes
import Shortlink.Account.RateWindows
import Shortlink.Auth.LiveChallenges
import Shortlink.Links.StatusChange
import Shortlink.Links.Listing
import Shortlink.LinkStatistics.Agreement
import Shortlink.LinkStatistics.Ownership
import Shortlink.Account.SingleUse
import Shortlink.Auth.PasswordPolicy
import Shortlink.Account.RedisKeys
import Shortlink.LinkStatistics.CountryResolver
import Shortlink.LinkStatistics.Pseudonym
import Shortlink.Links.PublicResolve
import Shortlink.LinkStatistics.Visits
import Shortlink.Account.Provenance
import Shortlink.Storage.LockOrder
import Shortlink.Auth.RevocationCauses
import Shortlink.Auth.Principals
import Shortlink.RedisTexts.Refinement
import Shortlink.Account.Recovery
import Shortlink.Auth.SessionLife
import Shortlink.Http.ErrorResponses
