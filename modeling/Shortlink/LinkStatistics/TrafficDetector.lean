import Shortlink.Text.WhiteSpace
import Mathlib.Data.List.Infix
import Mathlib.Data.String.Basic

/-!
# The traffic detector

`automated-traffic-detector.service.ts`: a user agent is that of a machine when it contains
one of the signatures, whatever the case of the letters. A header is read as Latin-1, so that
`toLowerCase` is needed for these characters only.
-/

namespace Shortlink

namespace LinkStatistics

open Shortlink.Text

def AUTOMATED_USER_AGENT_SIGNATURES : List String :=
  ["Googlebot", "Google-InspectionTool", "Storebot-Google", "GoogleOther", "APIs-Google",
    "AdsBot-Google", "bingbot", "BingPreview", "facebookexternalhit", "Facebot",
    "meta-externalagent", "Twitterbot", "Slackbot", "Slack-ImgProxy", "Discordbot", "LinkedInBot",
    "UptimeRobot", "Pingdom", "StatusCake", "Site24x7", "Uptime-Kuma", "Better Stack",
    "BetterUptime"]

/-- `toLowerCase` of a character of Latin-1: the letters `A` to `Z` and `À` to `Þ`, between
which stands the sign `×`. -/
def lowerCase (c : Char) : Char :=
  if 65 ≤ c.toNat ∧ c.toNat ≤ 90 ∨ 192 ≤ c.toNat ∧ c.toNat ≤ 222 ∧ c.toNat ≠ 215 then
    Char.ofNat (c.toNat + 32)
  else c

def toLowerCase (text : List Char) : List Char := text.map lowerCase

/-- `text.includes(part)`. -/
def includes (text part : List Char) : Bool := decide (part <:+: text)

def AutomatedTrafficDetector.isAutomated (userAgent : String) : Bool :=
  let normalized := trim userAgent.toList
  if normalized.length = 0 then false
  else
    let lower := toLowerCase normalized
    AUTOMATED_USER_AGENT_SIGNATURES.any fun signature =>
      includes lower (toLowerCase signature.toList)

theorem isWhiteSpace_lowerCase (c : Char) : isWhiteSpace (lowerCase c) = isWhiteSpace c := by
  by_cases hc : c.toNat < 223
  · have hall : ∀ n < 223, isWhiteSpace (lowerCase (Char.ofNat n)) =
        isWhiteSpace (Char.ofNat n) := by decide +kernel
    have hself := hall c.toNat hc
    rwa [Char.ofNat_toNat] at hself
  · rw [lowerCase, if_neg]
    omega

/-- It makes no difference which comes first. -/
theorem toLowerCase_trim (text : List Char) :
    toLowerCase (trim text) = trim (toLowerCase text) := by
  have hdrop : ∀ l : List Char,
      (l.dropWhile isWhiteSpace).map lowerCase = (l.map lowerCase).dropWhile isWhiteSpace := by
    intro l
    have hsame : isWhiteSpace ∘ lowerCase = isWhiteSpace := funext isWhiteSpace_lowerCase
    rw [List.dropWhile_map, hsame]
  rw [trim, trim, toLowerCase, List.map_reverse, hdrop, List.map_reverse, hdrop, toLowerCase]

/-- The signatures neither begin nor end with white space. -/
theorem signature_ends {signature : String} (h : signature ∈ AUTOMATED_USER_AGENT_SIGNATURES) :
    ∃ c d l, toLowerCase signature.toList = c :: l ∧
      (toLowerCase signature.toList).reverse.head? = some d ∧ isWhiteSpace c = false ∧
        isWhiteSpace d = false := by
  have hall : AUTOMATED_USER_AGENT_SIGNATURES.all (fun signature =>
      ((toLowerCase signature.toList).head?.any fun c => !isWhiteSpace c) &&
        (toLowerCase signature.toList).reverse.head?.any fun d => !isWhiteSpace d) = true := by
    decide
  have hends := List.all_eq_true.1 hall signature h
  rw [Bool.and_eq_true, Option.any_eq_true, Option.any_eq_true] at hends
  obtain ⟨⟨c, hc, hplain⟩, d, hd, hplain'⟩ := hends
  obtain ⟨l, hl⟩ := List.head?_eq_some_iff.1 hc
  exact ⟨c, d, l, hl, hd, by simpa using hplain, by simpa using hplain'⟩

/-- Neither the trimming nor the test for an empty text has an effect. -/
theorem isAutomated_iff {userAgent : String} :
    AutomatedTrafficDetector.isAutomated userAgent = true ↔
      ∃ signature ∈ AUTOMATED_USER_AGENT_SIGNATURES,
        toLowerCase signature.toList <:+: toLowerCase userAgent.toList := by
  have hfound : (AUTOMATED_USER_AGENT_SIGNATURES.any fun signature =>
      includes (toLowerCase (trim userAgent.toList)) (toLowerCase signature.toList)) = true ↔
        ∃ signature ∈ AUTOMATED_USER_AGENT_SIGNATURES,
          toLowerCase signature.toList <:+: toLowerCase userAgent.toList := by
    rw [List.any_eq_true]
    refine exists_congr fun signature => and_congr_right fun hsignature => ?_
    obtain ⟨c, d, l, hhead, hlast, hc, hd⟩ := signature_ends hsignature
    rw [includes, decide_eq_true_eq, toLowerCase_trim, infix_trim_iff hhead hlast hc hd]
  rw [AutomatedTrafficDetector.isAutomated]
  by_cases hempty : (trim userAgent.toList).length = 0
  · rw [if_pos hempty, ← hfound]
    rw [List.length_eq_zero_iff] at hempty
    rw [hempty]
    decide
  · rw [if_neg hempty]
    exact hfound

end LinkStatistics

end Shortlink
