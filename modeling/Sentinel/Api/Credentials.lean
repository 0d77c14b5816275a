import Mathlib.Data.List.Dedup
import Sentinel.Core.Audit
import Sentinel.Support.Substring

/-!
# Usernames and passwords

The checks an account passes before it is written: the character set of its
name, and the password policy.  Case folding and the letter tests of the
interpreter are parameters.
-/

namespace Sentinel

/-- `str.lower`, `str.isalnum` and `str.isalpha`. -/
structure TextOps where
  lower : String → String
  isAlnum : Char → Bool
  isAlpha : Char → Bool

namespace TextOps

variable (ops : TextOps)

/-- `text.strip()`. -/
def strip (text : String) : String := String.ofList (Chars.strip text.toList)

def minPasswordLength : ℕ := 12

def commonPasswords : List String :=
  ["password", "password1", "password123", "123456", "12345678", "123456789", "1234567890",
   "qwerty", "qwerty123", "abc123", "letmein", "welcome", "admin", "admin123", "root", "toor",
   "changeme", "trustno1", "iloveyou", "monkey", "dragon", "sunshine", "princess", "football",
   "baseball", "master", "shadow", "superman", "batman", "passw0rd", "p@ssword", "p@ssw0rd",
   "sentinel", "sentinelfx", "trading", "forex", "money", "password1234", "passwordpassword",
   "qwerty123456", "123456789012", "1234567890123", "qwertyuiop123", "iloveyou1234",
   "letmein12345", "administrator", "sentinel-fx1", "welcome123456", "adminadmin12"]

/-- `text.rstrip(chars)`. -/
def rstripChars (chars : List Char) (text : List Char) : List Char :=
  (text.reverse.dropWhile fun c => chars.contains c).reverse

/-- `_password_shapes`: the forms of a password that are judged the same. -/
def passwordShapes (password : String) : List String :=
  let lowered := ops.lower (strip password)
  [lowered, String.ofList (lowered.toList.filter ops.isAlnum),
    String.ofList (lowered.toList.filter ops.isAlpha),
    String.ofList (rstripChars "0123456789!@#$%^&*._-".toList lowered.toList)]

/-- `check_password_policy`: nothing, or why the password is refused. -/
def checkPasswordPolicy (password username : String) : Option String :=
  if 256 < password.length then
    some "گذرواژه بیش از اندازه بلند است (بیشینه ۲۵۶ نویسه)."
  else if (ops.passwordShapes password).any fun shape => commonPasswords.contains shape then
    some ("این گذرواژه (یا شکل سادهٔ آن) در فهرست رایج‌ترین گذرواژه‌های " ++
      "لو رفته است. اولین چیزی است که امتحان می‌شود — اضافه کردن یک " ++
      "عدد یا حرف بزرگ به آخرش کمکی نمی‌کند.")
  else if password.length < minPasswordLength then
    some ("گذرواژه باید دست‌کم " ++ toString minPasswordLength ++ " نویسه باشد. " ++
      "یک عبارت چندکلمه‌ای که فقط خودتان می‌دانید از یک کلمهٔ " ++
      "پیچیدهٔ کوتاه امن‌تر است.")
  else if username ≠ "" ∧
      occursIn (ops.lower username) (ops.lower (strip password)) = true then
    some "گذرواژه نباید نام کاربری را در خود داشته باشد."
  else if password.toList.dedup.length < 5 then
    some "گذرواژه تقریباً از یک نویسه تشکیل شده است."
  else none

def usernameChar (c : Char) : Bool :=
  c.isAlphanum || c = '.' || c = '_' || c = '-'

def checkUsername (username : String) : Option String :=
  if username = "" then some "نام کاربری نمی‌تواند خالی باشد."
  else if 64 < username.length then some "نام کاربری نباید بیشتر از ۶۴ نویسه باشد."
  else if username.length < 3 then some "نام کاربری باید دست‌کم ۳ نویسه باشد."
  else if username.toList.all usernameChar = false then
    some ("نام کاربری فقط می‌تواند حرف انگلیسی، رقم، نقطه، خط تیره و " ++
      "زیرخط داشته باشد.")
  else none

end TextOps

end Sentinel
