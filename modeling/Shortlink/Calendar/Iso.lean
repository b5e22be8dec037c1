import Shortlink.Calendar.EcmaDate

/-!
# Instants as texts

The text that `toISOString` gives an instant of a year with four digits is read back by the
constructor of `Date` as the same instant. Of the texts that the constructor accepts only
those of this form are here.
-/

namespace Shortlink

namespace Calendar

namespace EcmaDate

/-- The milliseconds of `HH:mm:ss.sssZ`. -/
def readTime : List Char → Option ℕ
  | [h₁, h₂, ':', m₁, m₂, ':', s₁, s₂, '.', x₁, x₂, x₃, 'Z'] =>
      if [h₁, h₂, m₁, m₂, s₁, s₂, x₁, x₂, x₃].all Char.isDigit then
        let hours := number [h₁, h₂]
        let minutes := number [m₁, m₂]
        let seconds := number [s₁, s₂]
        if hours < 24 ∧ minutes < 60 ∧ seconds < 60 then
          some (((hours * 60 + minutes) * 60 + seconds) * 1000 + number [x₁, x₂, x₃])
        else none
      else none
  | _ => none

/-- `new Date(text)`. -/
def parse (text : List Char) : Option ℤ :=
  match text.drop 10 with
  | 'T' :: time => do
      let midnight ← parseMidnight (text.take 10)
      let ms ← readTime time
      return midnight + ms
  | _ => none

theorem readTime_timeText {ms : ℕ} (h : ms < 86400000) :
    readTime (timeText ms ++ ['Z']) = some ms := by
  have hhours : ms / 3600000 < 10 ^ 2 := by omega
  have hminutes : ms / 60000 % 60 < 10 ^ 2 := by omega
  have hseconds : ms / 1000 % 60 < 10 ^ 2 := by omega
  have hrest : ms % 1000 < 10 ^ 3 := by omega
  obtain ⟨h₁, h₂, hh⟩ := List.length_eq_two.1 (length_padded (by decide) hhours)
  obtain ⟨m₁, m₂, hm⟩ := List.length_eq_two.1 (length_padded (by decide) hminutes)
  obtain ⟨s₁, s₂, hs⟩ := List.length_eq_two.1 (length_padded (by decide) hseconds)
  obtain ⟨x₁, x₂, x₃, hx⟩ := List.length_eq_three.1 (length_padded (by decide) hrest)
  have hdigits : [h₁, h₂, m₁, m₂, s₁, s₂, x₁, x₂, x₃].all Char.isDigit = true := by
    have hall : [h₁, h₂, m₁, m₂, s₁, s₂, x₁, x₂, x₃] = padded 2 (ms / 3600000) ++
        (padded 2 (ms / 60000 % 60) ++ (padded 2 (ms / 1000 % 60) ++ padded 3 (ms % 1000))) := by
      rw [hh, hm, hs, hx]
      rfl
    rw [hall, List.all_eq_true]
    intro c hc
    rcases List.mem_append.1 hc with hc | hc
    · exact digits_padded _ _ c hc
    rcases List.mem_append.1 hc with hc | hc
    · exact digits_padded _ _ c hc
    rcases List.mem_append.1 hc with hc | hc <;> exact digits_padded _ _ c hc
  have hn₁ : number [h₁, h₂] = ms / 3600000 := by rw [← hh, number_padded]
  have hn₂ : number [m₁, m₂] = ms / 60000 % 60 := by rw [← hm, number_padded]
  have hn₃ : number [s₁, s₂] = ms / 1000 % 60 := by rw [← hs, number_padded]
  have hn₄ : number [x₁, x₂, x₃] = ms % 1000 := by rw [← hx, number_padded]
  have hrange : ms / 3600000 < 24 ∧ ms / 60000 % 60 < 60 ∧ ms / 1000 % 60 < 60 := by omega
  have hsum : ((ms / 3600000 * 60 + ms / 60000 % 60) * 60 + ms / 1000 % 60) * 1000 +
      ms % 1000 = ms := by omega
  rw [timeText, hh, hm, hs, hx]
  refine (if_pos hdigits).trans ?_
  simp only [hn₁, hn₂, hn₃, hn₄, if_pos hrange, hsum]

/-- An instant is read back from its text. -/
theorem parse_toISOString {t : ℤ} (h : (civil t).FourDigits) :
    parse (toISOString t) = some t := by
  have htext : toISOString t =
      (civil t).text ++ 'T' :: (timeText (t % msPerDay).toNat ++ ['Z']) := by
    have hyear : 0 ≤ (civil t).year ∧ (civil t).year ≤ 9999 := h
    rw [toISOString, yearText, if_pos hyear, CivilDate.text]
    simp
  have hlt : (t % msPerDay).toNat < 86400000 := by
    have hpos := Int.emod_lt_of_pos t (b := msPerDay) (by decide)
    have hms : msPerDay = 86400000 := rfl
    omega
  have hsum : midnight (civil t) + (t % msPerDay).toNat = t := by
    have hpos := Int.emod_nonneg t (b := msPerDay) (by decide)
    rw [midnight, dayNumber_civil, Int.toNat_of_nonneg hpos]
    exact Int.ediv_mul_add_emod t msPerDay
  have hdrop : (toISOString t).drop 10 = 'T' :: (timeText (t % msPerDay).toNat ++ ['Z']) := by
    rw [htext, List.drop_left' (CivilDate.length_text h)]
  rw [parse, hdrop]
  simp only [toISOString_take h, parseMidnight_text h, readTime_timeText hlt,
    Option.bind_eq_bind, Option.bind_some, Option.pure_def, hsum]

end EcmaDate

end Calendar

end Shortlink
