import PushGateway.Key.Verifier
import PushGateway.Log
/-!
The registry of verification keys. A team has one key set and one topic set: registering a key for a
team replaces whatever was registered for it, and takes the key id from any other team.
-/

namespace PushGateway

/-- A set of topics, listed in rising order without repetition. -/
def topicSet (topics : List String) : List String := topics.eraseDups.mergeSort (fun a b => decide (a ≤ b))

@[simp] theorem mem_topicSet {topics : List String} {topic : String} : topic ∈ topicSet topics ↔ topic ∈ topics := by
  simp [topicSet]

structure KeyRegistration where
  algorithm : String
  material : Bytes
  team : String
  keyId : String
  topics : List String
  deriving DecidableEq, Repr

structure KeyRecord where
  keyId : String
  team : String
  verifier : Verifier
  deriving DecidableEq, Repr

/-- Key records by key id and topics by team, each id and each team at most once. -/
structure KeyRegistry where
  records : List KeyRecord := []
  topicsByTeam : List (String × List String) := []
  deriving DecidableEq, Repr

namespace KeyRegistry

def empty : KeyRegistry := {}

/-- Enters a key whose material has been accepted. -/
def insert (r : KeyRegistry) (record : KeyRecord) (topics : List String) : KeyRegistry where
  records := record :: r.records.filter fun e => e.team ≠ record.team ∧ e.keyId ≠ record.keyId
  topicsByTeam := (record.team, topicSet topics) :: r.topicsByTeam.filter fun e => e.1 ≠ record.team

/-- Registers a key. The material is judged first, so a failure leaves the registry as it was. -/
def register (r : KeyRegistry) (q : KeyRegistration) : Except RegistrationError KeyRegistry :=
  match Verifier.new q.algorithm q.material with
  | .error e => .error e
  | .ok v => .ok (r.insert ⟨q.keyId, q.team, v⟩ q.topics)

/-- How many keys a registration for the team removes. -/
def superseded (r : KeyRegistry) (team : String) : Nat := r.records.countP fun e => e.team = team

def registerLog (r : KeyRegistry) (q : KeyRegistration) : Log.Record :=
  Log.info .keys (s!"Registering key '{q.keyId}' for team '{q.team}' with {(topicSet q.topics).length} topic(s) " ++
    s!"(superseded {r.superseded q.team} key(s))")

def key (r : KeyRegistry) (keyId : String) : Option KeyRecord := r.records.find? (·.keyId = keyId)

def verifier (r : KeyRegistry) (keyId : String) : Option Verifier := (r.key keyId).map (·.verifier)

def team (r : KeyRegistry) (keyId : String) : Option String := (r.key keyId).map (·.team)

def topics (r : KeyRegistry) (team : String) : Option (List String) := r.topicsByTeam.lookup team

/-- Entering a key decides the topics of its own team and of no other. -/
@[simp] theorem topics_insert (r : KeyRegistry) (record : KeyRecord) (topics : List String) (team : String) :
    (r.insert record topics).topics team =
      if team = record.team then some (topicSet topics) else r.topics team := by
  simp only [KeyRegistry.topics, insert, List.lookup_cons]
  by_cases h : team = record.team
  · simp [h]
  · rw [if_neg h, beq_false_of_ne h]
    induction r.topicsByTeam with
    | nil => rfl
    | cons x xs ih => grind

def size (r : KeyRegistry) : Nat := r.records.length

def clearLog : Log.Record := Log.info .keys "Cleared all signing keys"

end KeyRegistry
end PushGateway
