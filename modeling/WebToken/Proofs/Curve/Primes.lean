import WebToken.Curve.Basic
import WebToken.Proofs.Primality

/-! The fields of the curves are prime, and so are their orders. -/

namespace WebToken.Curve

open Primality

/-- Why the field of a curve is prime. -/
def fieldPrimeSteps : Curve → List Step
  | .p256 =>
      [⟨204061199, 3, [11, 23, 107]⟩,
       ⟨34282281433, 2, [204061199]⟩,
       ⟨66417393611, 2, [53, 173, 197]⟩,
       ⟨11290956913871, 2, [66417393611]⟩,
       ⟨774023187263532362759620327192479577272145303, 2, [34282281433, 11290956913871]⟩,
       ⟨835945042244614951780389953367877943453916927241, 2,
         [774023187263532362759620327192479577272145303]⟩,
       ⟨fieldPrime .p256, 2, [835945042244614951780389953367877943453916927241]⟩]
  | .p384 =>
      [⟨8389, 2, [233]⟩,
       ⟨38557, 2, [3, 7, 17]⟩,
       ⟨3253, 2, [271]⟩,
       ⟨312289, 2, [3253]⟩,
       ⟨513928823, 2, [599, 661]⟩,
       ⟨53448597593, 2, [513928823]⟩,
       ⟨1357291859799823621, 2, [53448597593]⟩,
       ⟨105957871, 2, [211, 881]⟩,
       ⟨529709925838459440593, 2, [7, 181, 105957871]⟩,
       ⟨19173790298027098165721053155794528970226934547887232785722672956982046098136719667167519737147526097,
         2, [8389, 38557, 312289, 1357291859799823621, 529709925838459440593]⟩,
       ⟨fieldPrime .p384, 2,
         [19173790298027098165721053155794528970226934547887232785722672956982046098136719667167519737147526097]⟩]
  | .p521 =>
      [⟨1613, 3, [13, 31]⟩,
       ⟨2731, 3, [7, 13]⟩,
       ⟨8191, 3, [7, 13]⟩,
       ⟨42641, 3, [13, 41]⟩,
       ⟨51481, 3, [5, 11, 13]⟩,
       ⟨61681, 3, [257]⟩,
       ⟨1051, 2, [5, 7]⟩,
       ⟨409891, 3, [1051]⟩,
       ⟨858001, 3, [5, 5, 11, 13]⟩,
       ⟨7623851, 3, [37, 317]⟩,
       ⟨34110701, 5, [5, 5, 13, 19]⟩,
       ⟨1237, 2, [103]⟩,
       ⟨49481, 2, [1237]⟩,
       ⟨308761441, 3, [49481]⟩,
       ⟨1433, 2, [179]⟩,
       ⟨108140989558681, 3, [13, 683, 1433]⟩,
       ⟨fieldPrime .p521, 3,
         [131, 157, 521, 1613, 2731, 8191, 42641, 51481, 61681, 409891, 858001, 7623851, 34110701,
          308761441, 108140989558681]⟩]

/-- Why the order of a curve is prime. -/
def orderSteps : Curve → List Step
  | .p256 =>
      [⟨3407, 2, [131]⟩,
       ⟨17449, 2, [727]⟩,
       ⟨9547, 2, [37, 43]⟩,
       ⟨38189, 2, [9547]⟩,
       ⟨9350987, 2, [17, 229]⟩,
       ⟨187019741, 2, [9350987]⟩,
       ⟨311245691, 2, [29, 29, 311]⟩,
       ⟨622491383, 2, [311245691]⟩,
       ⟨104471, 2, [337]⟩,
       ⟨3969899, 2, [104471]⟩,
       ⟨1002328039319, 2, [3969899]⟩,
       ⟨order .p256, 2, [3407, 17449, 38189, 187019741, 622491383, 1002328039319]⟩]
  | .p384 =>
      [⟨248431, 2, [7, 13, 13]⟩,
       ⟨37447, 2, [79, 79]⟩,
       ⟨8463023, 2, [37447]⟩,
       ⟨9863677, 2, [311, 881]⟩,
       ⟨37344768852931, 2, [9863677]⟩,
       ⟨55942463741690639, 2, [37344768852931]⟩,
       ⟨1059392654943455286185473617842338478315215895509773412096307, 2,
         [251, 248431, 8463023, 55942463741690639]⟩,
       ⟨3055465788140352002733946906144561090641249606160407884365391979704929268480326390471, 2,
         [1059392654943455286185473617842338478315215895509773412096307]⟩,
       ⟨order .p384, 2,
         [3055465788140352002733946906144561090641249606160407884365391979704929268480326390471]⟩]
  | .p521 =>
      [⟨777241, 2, [17, 127]⟩,
       ⟨60018716061994831, 2, [5, 7, 19, 777241]⟩,
       ⟨4239602065187190872179, 2, [60018716061994831]⟩,
       ⟨7427946019382605513260578233234962521, 2, [4239602065187190872179]⟩,
       ⟨15994076126984618329123851002118749004583184815459808099, 2,
         [7427946019382605513260578233234962521]⟩,
       ⟨3636410625392624440351547907325502812950802686368714273274221490761556277859337865760708490235892541081304511,
         2, [15994076126984618329123851002118749004583184815459808099]⟩,
       ⟨3615194794881930010216942559103847593050265703173292383701371712350878926821661243755933835426896058418509759880171943,
         2, [3636410625392624440351547907325502812950802686368714273274221490761556277859337865760708490235892541081304511]⟩,
       ⟨order .p521, 2,
         [3615194794881930010216942559103847593050265703173292383701371712350878926821661243755933835426896058418509759880171943]⟩]

theorem check_fieldPrimeSteps (curve : Curve) : check [] curve.fieldPrimeSteps = true := by
  cases curve <;> decide +kernel

theorem check_orderSteps (curve : Curve) : check [] curve.orderSteps = true := by
  cases curve <;> decide +kernel

theorem prime_fieldPrime (curve : Curve) : curve.fieldPrime.Prime :=
  prime_of_checked curve.check_fieldPrimeSteps (by cases curve <;> decide +kernel)

theorem prime_order (curve : Curve) : curve.order.Prime :=
  prime_of_checked curve.check_orderSteps (by cases curve <;> decide +kernel)

end WebToken.Curve
