/-
NATS: what the services take from it (`nats_client`).

A publication is a subject and a payload. It goes to the subscriptions
whose pattern matches its subject, and to the streams that capture it. The
server is not in the repository: what matches is a parameter (`Nats`).
Subjects it takes have tokens, none of them empty, a wildcard, or with
white space in it (`LegalSubject`); of others nothing is known, and what is
published under them may go nowhere.
-/
import Wup.Gateway.Subject

namespace Wup

open Gateway (buildSubject splitDots splitDots_buildSubject)

/-- What is published under a subject. -/
structure Publication where
  subject : String
  payload : String
deriving DecidableEq, Repr

-- ============================================================== the server

/-- A subject to publish under. -/
def LegalSubject (subject : String) : Prop :=
  ∀ token ∈ splitDots subject, token ≠ "" ∧ token ≠ "*" ∧ token ≠ ">"
    ∧ token.toList.all (fun c => !c.isWhitespace) = true

instance (subject : String) : Decidable (LegalSubject subject) :=
  inferInstanceAs (Decidable (∀ token ∈ _, _))

theorem legalSubject_buildSubject {name rest : String} :
    LegalSubject (buildSubject name rest)
      ↔ LegalSubject name ∧ LegalSubject rest := by
  unfold LegalSubject
  rw [splitDots_buildSubject, List.forall_mem_append]

/-- The server, as far as it is a parameter. -/
structure Nats where
  /-- Whether a pattern matches a subject. -/
  isMatch : String → String → Bool

/-- The server as documented: a `>` at the end stands for one or more
tokens. -/
structure Nats.Lawful (nats : Nats) : Prop where
  isMatch_rest : ∀ {name subject : String}, LegalSubject name →
    LegalSubject subject →
    (nats.isMatch (name ++ ".>") subject = true
      ↔ (name ++ ".").toList <+: subject.toList)

/-- A subscription to the pattern receives the publication. -/
def Nats.Delivers (nats : Nats) (pattern : String) (pub : Publication) :
    Prop :=
  nats.isMatch pattern pub.subject = true

instance (nats : Nats) (pattern : String) (pub : Publication) :
    Decidable (nats.Delivers pattern pub) :=
  inferInstanceAs (Decidable (_ = true))

/-- A pattern that ends in `.>` matches what goes on behind the dot, any
other what it spells. -/
def simpleNats : Nats where
  isMatch pattern subject :=
    if ['.', '>'] <:+ pattern.toList then
      decide (pattern.toList.dropLast <+: subject.toList)
    else decide (pattern = subject)

theorem simpleNats_lawful : simpleNats.Lawful where
  isMatch_rest {name subject} _ _ := by
    have hpattern : (name ++ ".>").toList
        = name.toList ++ ['.', '>'] := by
      simp
    have hname : (name ++ ".").toList = name.toList ++ ['.'] := by
      simp
    have hrest : (name.toList ++ ['.', '>']).dropLast
        = name.toList ++ ['.'] := by
      rw [List.dropLast_append_of_ne_nil (by simp)]
      rfl
    unfold simpleNats
    simp only [hpattern, hname]
    rw [if_pos (List.suffix_append ..), hrest, decide_eq_true_iff]

-- ================================================================= streams

/-- Configuration for creating a stream. -/
structure StreamConfig where
  name : String
  /-- Subject patterns to capture. -/
  subjects : List String
  maxAgeSecs : Nat
  maxMessages : Int
  maxBytes : Int
deriving DecidableEq, Repr

/-- Default retention period (5 minutes), messages and bytes (1GB). -/
def defaultRetentionSecs : Nat := 300
def defaultMaxMessages : Int := 1000000
def defaultMaxBytes : Int := 1073741824

namespace StreamConfig

/-- `{SERVICE}_{TYPE}` with subject `{type}.{service}.>`. -/
def forService (service streamType : String) : StreamConfig where
  name := service.toUpper ++ "_" ++ streamType.toUpper
  subjects := [streamType ++ "." ++ service ++ ".>"]
  maxAgeSecs := defaultRetentionSecs
  maxMessages := defaultMaxMessages
  maxBytes := defaultMaxBytes

/-- The stream keeps a publication. -/
def Captures (nats : Nats) (config : StreamConfig) (pub : Publication) :
    Prop :=
  ∃ pattern ∈ config.subjects, nats.Delivers pattern pub

instance (nats : Nats) (config : StreamConfig) (pub : Publication) :
    Decidable (config.Captures nats pub) :=
  inferInstanceAs (Decidable (∃ pattern ∈ _, _))

end StreamConfig

/-- The stream `ensure_normalized_stream` makes sure of. -/
def ensureNormalizedStream (service : String) : StreamConfig :=
  .forService service "normalized"

/-- The stream `ensure_market_stream` makes sure of. -/
def ensureMarketStream (service : String) : StreamConfig :=
  .forService service "market"

end Wup
