import OrderFlow.Text.Integer

/-!
# Failures

Every way in which an operation can fail, as its cause. `ValueFault.message`,
`ConfigurationFault.message`, `FetchFault.message` and `PersistenceFault.message` give the
wording. Two faults, overflow and an invalid decimal operation, end the check of a record at
once; all others are collected as issues. Reading ends with `recursion` where a document is nested
too deep, and with `undecodable` where bytes are not the text that they are said to be.
-/

namespace OrderFlow

open Text

/-- A value that an operation does not take. Texts in it are as messages show them. -/
inductive ValueFault
  | price (shown : String)
  | identifier (shown kind : String)
  | quantity (shown : String)
  | missingText (className : String)
  | integerLiteral (quoted : String)
  | integerTooLong (digits : Nat)
  | floatNotANumber
  | decimalNotANumber
  | decimalParts (rule : String)
  | tradeQuantity (n : Int)
  | eventCount (n : Int)
  | chunkSize (n : Int)
  | noVenue
  | notPositive (shown : String)
  | negative (shown : String)
  | blank
  | address (quoted : String)
  | hostBrackets
  | hostFuture
  | hostVersionFour
  | hostNotNormal (host : String)
  | waitNotANumber
deriving DecidableEq

namespace ValueFault

/-- The wording of a refused value. -/
def message : ValueFault → String
  | price shown => shown ++ " invalid price"
  | identifier shown kind => shown ++ " invalid " ++ kind
  | quantity shown => shown ++ " invalid quantity"
  | missingText className =>
    "Value for <class '" ++ className ++ "'> was None. Did you specify your env vars?"
  | integerLiteral quoted => "invalid literal for int() with base 10: " ++ quoted
  | integerTooLong digits =>
    "Exceeds the limit (" ++ natText literalDigits
      ++ " digits) for integer string conversion: value has " ++ natText digits
      ++ " digits; use sys.set_int_max_str_digits() to increase the limit"
  | floatNotANumber => "cannot convert float NaN to integer"
  | decimalNotANumber => "cannot convert NaN to integer"
  | decimalParts rule => rule
  | tradeQuantity n => intText n ++ " invalid trade quantity"
  | eventCount n => intText n ++ " invalid event count"
  | chunkSize n => intText n ++ " invalid chunk size"
  | noVenue => "No venue given and none configured"
  | notPositive shown => "must be positive, got " ++ shown
  | negative shown => "must not be negative, got " ++ shown
  | blank => "must not be empty"
  | address quoted => quoted ++ " does not appear to be an IPv4 or IPv6 address"
  | hostBrackets => "Invalid IPv6 URL"
  | hostFuture => "IPvFuture address is invalid"
  | hostVersionFour => "An IPv4 address cannot be in brackets"
  | hostNotNormal host =>
    "netloc '" ++ host ++ "' contains invalid characters under NFKC normalization"
  | waitNotANumber => "Invalid value NaN (not a number)"

end ValueFault

/-- A step from a record to one of its parts. -/
inductive PathStep
  | field (name : String)
  | index (n : Nat)
deriving DecidableEq

/-- What is wrong with a part of a record. -/
inductive Defect
  | missing
  | notARecord
  | notAList
  | notAnInteger
  | integerUnreadable
  | integerTooLong
  | integerHasFraction
  | notATruthValue
  | truthValueUnreadable
  | notAFloat
  | floatUnreadable
  | notAText
  | notUnicode
  | notADecimal
  | decimalUnreadable
  | notFinite
  | notATime
  | timeUnreadable
  | refused (fault : ValueFault)
deriving DecidableEq

/-- A defect and where it is, from the whole record inwards. -/
structure Issue where
  path : List PathStep
  defect : Defect
deriving DecidableEq

/-- A fault that ends the check of a record. -/
inductive Abort
  | overflow
  | invalidOperation
deriving DecidableEq

/-- Why a type does not take a value: by a rule of its own, or by a fault that ends the check
of a whole record. -/
inductive Refusal
  | value (fault : ValueFault)
  | abort (cause : Abort)
deriving DecidableEq

/-- Settings or a credential that an operator has to mend. -/
inductive ConfigurationFault
  | settingMissing (name : String)
  | settingsInvalid (issues : List Issue)
  | environmentInvalid (issues : List Issue)
  | credentialMissing (account : Nat)
  | scopeMissing (account : Nat) (scope : String)
  | refreshTokenMissing (account : Nat)
  | credentialExpired (account : Nat) (expiry : String)
  | forbidden (account : Nat) (url : String)
deriving DecidableEq

namespace ConfigurationFault

/-- The wording of a configuration fault, without the issues behind it. -/
def message : ConfigurationFault → String
  | settingMissing name => name ++ " is not configured"
  | settingsInvalid _ => "Invalid collector settings"
  | environmentInvalid _ => "Credential env vars are invalid"
  | credentialMissing account => "No credential found for account " ++ natText account
  | scopeMissing account scope =>
    "Credential for account " ++ natText account ++ " is missing scope " ++ scope
      ++ ". Relink the account with that scope"
  | refreshTokenMissing account =>
    "Credential for account " ++ natText account ++ " has no refresh token"
  | credentialExpired account expiry =>
    "Credential for account " ++ natText account ++ " expired at " ++ expiry
      ++ " and was not refreshed"
  | forbidden account url =>
    "Account " ++ natText account ++ " is not allowed to read " ++ url

/-- The issues behind a configuration fault. -/
def issues : ConfigurationFault → List Issue
  | settingsInvalid issues => issues
  | environmentInvalid issues => issues
  | _ => []

end ConfigurationFault

/-- A page of the order book that could not be had. -/
inductive FetchFault
  | transport (url text : String)
  | unauthorized (url : String)
  | refused (url : String) (status : Int)
  | malformed (page : Nat) (venue : Nat) (issues : List Issue)
  | pageCount (text : String)
deriving DecidableEq

namespace FetchFault

/-- The wording of a fetch fault, without the issues behind it. -/
def message : FetchFault → String
  | transport url text => "GET " ++ url ++ " failed: " ++ text
  | unauthorized url => "GET " ++ url ++ " was not authorized"
  | refused url status => "GET " ++ url ++ " returned " ++ intText status
  | malformed page venue _ =>
    "Malformed orders on page " ++ natText page ++ " for structure " ++ natText venue
  | pageCount text => "Invalid X-Pages header: " ++ text

/-- The status of the response behind a fetch fault, if its status was the fault. -/
def status? : FetchFault → Option Int
  | unauthorized _ => some 401
  | refused _ status => some status
  | _ => none

/-- The issues behind a fetch fault. -/
def issues : FetchFault → List Issue
  | malformed _ _ issues => issues
  | _ => []

end FetchFault

/-- A pass that the store did not take. -/
inductive PersistenceFault
  | backend (name : String)
  | transaction
  | statement
  | tables
deriving DecidableEq

namespace PersistenceFault

/-- The wording of a persistence fault. -/
def message : PersistenceFault → String
  | backend name => "Unsupported database backend: " ++ name
  | transaction => "Database transaction failed"
  | statement => "Database transaction failed"
  | tables => "Could not create tables"

/-- The class of the fault behind a persistence fault: the database reports one, or a value of a
statement cannot be made into a text for it. -/
def cause? : PersistenceFault → Option String
  | backend _ => none
  | transaction => some "OperationalError"
  | statement => some "StatementError"
  | tables => some "OperationalError"

end PersistenceFault

/-- Why an operation failed. -/
inductive Failure
  | value (fault : ValueFault)
  | invalid (issues : List Issue)
  | abort (cause : Abort)
  | mistyped
  | configuration (fault : ConfigurationFault)
  | inProgress (venue : Nat)
  | fetch (fault : FetchFault)
  | persistence (fault : PersistenceFault)
  | system (text : String)
  | recursion
  | undecodable
  | databaseAddress
  | database
deriving DecidableEq

namespace Failure

/-- The failure of an operation whose value was refused. -/
def ofRefusal : Refusal → Failure
  | .value fault => .value fault
  | .abort cause => .abort cause

/-- A result outside the representable times or integers. -/
def overflow : Failure := .abort .overflow

/-- A decimal operation without a result. -/
def invalidOperation : Failure := .abort .invalidOperation

/-- The wording of a failure that has one. -/
def message? : Failure → Option String
  | value fault => some fault.message
  | configuration fault => some fault.message
  | inProgress venue => some ("A pass for structure " ++ natText venue ++ " is still running")
  | fetch fault => some fault.message
  | persistence fault => some fault.message
  | system text => some text
  | invalid _ => none
  | abort _ => none
  | mistyped => none
  | recursion => none
  | undecodable => none
  | databaseAddress => none
  | database => none

/-- A failure that a pass reports on purpose. -/
def isCollection : Failure → Bool
  | configuration _ => true
  | inProgress _ => true
  | fetch _ => true
  | persistence _ => true
  | _ => false

end Failure

end OrderFlow
