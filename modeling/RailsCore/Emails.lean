import RailsCore.Markup
import RailsCore.UsersService

/-!
# The mails of the users service

Both mails are HTML with text of others in it: the link of a password reset in
an attribute, and what an applicant has written between tags. The texts are
escaped. A reader sees the tags of the template, and the texts as they were
written.
-/

namespace RailsCore.UsersService
open Markup (Piece Text)

/-- `escape_html`. -/
def escapeHtml : Markup.Escapes where
  table := [('&', "amp".toList), ('<', "lt".toList), ('>', "gt".toList), ('"', "quot".toList),
    ('\'', "#39".toList)]
  ampersand := by decide
  ordered := by decide
  closed := by decide
  names := by decide

structure EmailService where
  apiKey : Option String
  fromEmail : String
  fromName : String
  betaNotificationEmail : String
  frontendBaseUrl : String
deriving DecidableEq, Repr

/-- The payload of `send_email`. -/
structure Mail where
  sender : String
  recipients : List String
  replyTo : Option String
  subject : String
  text : String
  html : Text
deriving DecidableEq, Repr

def pieces {Hole : Type} (s : String) : List (Piece Hole) := s.toList.map .char

def passwordResetHtml : List (Piece Unit) :=
  pieces ("<!DOCTYPE html>\n<html>\n<head><meta charset=\"utf-8\"></head>\n" ++
    "<body style=\"font-family: system-ui, sans-serif; line-height: 1.6; color: #333;\">\n" ++
    "<p>You requested a password reset for your Rails account.</p>\n<p><a href=\"") ++
  .hole () ::
  pieces ("\" style=\"display: inline-block; padding: 12px 24px; background: #000; color: #fff; " ++
    "text-decoration: none; border-radius: 6px;\">Reset Password</a></p>\n" ++
    "<p style=\"font-size: 14px; color: #666;\">This link will expire in 1 hour.</p>\n" ++
    "<p style=\"font-size: 14px; color: #666;\">If you didn't request this, you can safely " ++
    "ignore this email.</p>\n" ++
    "<hr style=\"border: none; border-top: 1px solid #eee; margin: 24px 0;\">\n" ++
    "<p style=\"font-size: 12px; color: #999;\">— Rails Financial Infrastructure</p>\n" ++
    "</body>\n</html>")

inductive BetaField where
  | name
  | company
  | useCase
deriving DecidableEq, Repr

def betaApplicationHtml : List (Piece BetaField) :=
  pieces ("<!DOCTYPE html>\n<html>\n<head><meta charset=\"utf-8\"></head>\n" ++
    "<body style=\"font-family: system-ui, sans-serif; line-height: 1.6; color: #333;\">\n" ++
    "<h2>Thanks for applying to the Rails private beta</h2>\n" ++
    "<p>We've received your application and will follow up shortly.</p>\n" ++
    "<p><strong>Summary</strong></p>\n<p><strong>Name:</strong> ") ++
  .hole .name :: pieces "</p>\n<p><strong>Company:</strong> " ++
  .hole .company :: pieces ("</p>\n<p><strong>Primary Use Case:</strong></p>\n" ++
    "<p style=\"white-space: pre-wrap;\">") ++
  .hole .useCase :: pieces ("</p>\n" ++
    "<hr style=\"border: none; border-top: 1px solid #eee; margin: 24px 0;\">\n" ++
    "<p style=\"font-size: 12px; color: #999;\">— Rails Financial Infrastructure</p>\n" ++
    "</body>\n</html>")

namespace EmailService
variable (service : EmailService)

def isConfigured : Bool := service.apiKey.isSome

def resetUrl (token : String) : String :=
  service.frontendBaseUrl ++ "/reset-password?token=" ++ token

def passwordResetMail (email token : String) : Mail where
  sender := service.fromName ++ " <" ++ service.fromEmail ++ ">"
  recipients := [email]
  replyTo := none
  subject := "Reset Your Password"
  text := "You requested a password reset for your Rails account.\n\n" ++
    "Click the link below to reset your password:\n\n" ++ service.resetUrl token ++ "\n\n" ++
    "This link will expire in 1 hour.\n\n" ++
    "If you didn't request this, you can safely ignore this email.\n\n" ++
    "— Rails Financial Infrastructure"
  html := Markup.fill (fun _ => escapeHtml.escape (service.resetUrl token).toList) passwordResetHtml

/-- `send_password_reset`, up to the call of `send_email`. -/
def sendPasswordReset (email token : String) : Except String Mail :=
  if service.isConfigured then .ok (service.passwordResetMail email token)
  else .error "Email service not configured"

/-- What stands in the holes of the mail to an applicant. -/
def betaFields (name company useCase : String) : BetaField → Text
  | .name => name.toList
  | .company => company.toList
  | .useCase => useCase.toList

def betaApplicationMail (name email company useCase : String) : Mail where
  sender := service.fromName ++ " <" ++ service.fromEmail ++ ">"
  recipients := [email]
  replyTo := some service.betaNotificationEmail
  subject := "We've received your private beta application"
  text := "Thanks for applying to the Rails private beta.\n\n" ++
    "We've received your application and will follow up shortly.\n\n" ++
    "Summary:\nName: " ++ name ++ "\nCompany: " ++ company ++ "\nPrimary Use Case:\n" ++ useCase ++
    "\n\n— Rails Financial Infrastructure"
  html := Markup.fill (fun i => escapeHtml.escape (betaFields name company useCase i))
    betaApplicationHtml

/-- `send_beta_application`, up to the call of `send_email`. -/
def sendBetaApplication (name email company useCase : String) : Except String Mail :=
  if service.isConfigured then .ok (service.betaApplicationMail name email company useCase)
  else .error "Email service not configured"

end EmailService

theorem escapeHtml_delimiters {c : Char} (delimits : c ∈ Markup.delimiters) :
    c ∈ escapeHtml.table.map Prod.fst ∧ ∀ p ∈ escapeHtml.table, c ∉ Markup.reference p.2 := by
  have all : Markup.delimiters.all (fun c => (escapeHtml.table.map Prod.fst).contains c &&
      escapeHtml.table.all fun p => !(Markup.reference p.2).contains c) = true := by decide +kernel
  obtain ⟨replaced, unused⟩ := Bool.and_eq_true_iff.mp (List.all_eq_true.mp all c delimits)
  refine ⟨List.contains_iff_mem.mp replaced, fun p listed inside => ?_⟩
  have absent := List.all_eq_true.mp unused p listed
  rw [List.contains_iff_mem.mpr inside] at absent
  cases absent

/-- A piece of text for others to fill in. -/
def isHole {Hole : Type} : Piece Hole → Bool
  | .char _ => false
  | .hole _ => true

-- The literals are spelled out first: the kernel is slow to decode a long string.
theorem passwordResetHtml_shape :
    passwordResetHtml.all (fun p => p ≠ .char '&') = true ∧
      ((Markup.cut .text [] passwordResetHtml).filter fun part => part.2.any isHole) =
        [(.quoted, [.hole ()])] := by
  simp only [passwordResetHtml, pieces, String.toList_append]
  repeat rw [String.toList_ofList]
  decide +kernel

theorem betaApplicationHtml_shape :
    betaApplicationHtml.all (fun p => p ≠ .char '&') = true ∧
      ((Markup.cut .text [] betaApplicationHtml).filter fun part => part.2.any isHole) =
        [(.text, [.char ' ', .hole .name]), (.text, [.char ' ', .hole .company]),
          (.text, [.hole .useCase])] := by
  simp only [betaApplicationHtml, pieces, String.toList_append]
  repeat rw [String.toList_ofList]
  decide +kernel

theorem read_escaped {Hole : Type} [DecidableEq Hole] {template : List (Piece Hole)}
    (bare : template.all (fun p => p ≠ .char '&') = true) (values : Hole → Text) :
    Markup.read escapeHtml (Markup.fill (fun i => escapeHtml.escape (values i)) template) =
      (Markup.cut .text [] template).map fun part => (part.1, Markup.fill values part.2) :=
  Markup.read_fill escapeHtml (fun _ delimits => (escapeHtml_delimiters delimits).1)
    (fun _ delimits => (escapeHtml_delimiters delimits).2)
    (fun p listed => of_decide_eq_true (List.all_eq_true.mp bare p listed)) values

/-- Whatever the token and the texts of an applicant are: a reader of the mail sees the tags and the
texts of its template, the link is one whole quoted attribute, and each of the applicant's texts
stands between two tags as it was written. -/
theorem mails_are_read_as_written (service : EmailService)
    (email token name company useCase : String) :
    Markup.read escapeHtml (service.passwordResetMail email token).html =
      (Markup.cut .text [] passwordResetHtml).map (fun part =>
        (part.1, Markup.fill (fun _ => (service.resetUrl token).toList) part.2)) ∧
    ((Markup.cut .text [] passwordResetHtml).filter fun part => part.2.any isHole) =
      [(.quoted, [.hole ()])] ∧
    Markup.read escapeHtml (service.betaApplicationMail name email company useCase).html =
      (Markup.cut .text [] betaApplicationHtml).map (fun part =>
        (part.1, Markup.fill (EmailService.betaFields name company useCase) part.2)) ∧
    ((Markup.cut .text [] betaApplicationHtml).filter fun part => part.2.any isHole) =
      [(.text, [.char ' ', .hole .name]), (.text, [.char ' ', .hole .company]),
        (.text, [.hole .useCase])] := by
  obtain ⟨bareReset, holesReset⟩ := passwordResetHtml_shape
  obtain ⟨bareBeta, holesBeta⟩ := betaApplicationHtml_shape
  refine ⟨?_, holesReset, ?_, holesBeta⟩
  · rw [EmailService.passwordResetMail, read_escaped bareReset]
  · rw [EmailService.betaApplicationMail, read_escaped bareBeta]

end RailsCore.UsersService
