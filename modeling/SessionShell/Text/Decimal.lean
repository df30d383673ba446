/-! Decimal text of numbers. -/

namespace SessionShell.Text

def decimal : Int → String
  | .ofNat n => String.ofList (Nat.toDigits 10 n)
  | .negSucc n => String.ofList ('-' :: Nat.toDigits 10 (n + 1))

example : decimal (-2147483648) = "-2147483648" ∧ decimal 0 = "0" := by decide +kernel

end SessionShell.Text
