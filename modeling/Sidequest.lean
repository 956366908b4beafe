import Sidequest.Agents.DispatchBank
import Sidequest.Agents.Gossip
import Sidequest.Beat.Apply
import Sidequest.Beat.Redirects
import Sidequest.Combat.Walk
import Sidequest.Combat.Barrier
import Sidequest.Combat.Dogfight
import Sidequest.Combat.Injury
import Sidequest.Combat.Raise
import Sidequest.Combat.Target
import Sidequest.Dungeon.Chokepoint
import Sidequest.Dungeon.Deepest
import Sidequest.Dungeon.Expanded
import Sidequest.Dungeon.Isolation
import Sidequest.Dungeon.Contiguous
import Sidequest.Fate.Contest
import Sidequest.Fate.Absorb
import Sidequest.Fate.Economy
import Sidequest.Fate.Exchange
import Sidequest.Genre.Resolve
import Sidequest.Interior.Drawn
import Sidequest.Magic.Keys
import Sidequest.Magic.State
import Sidequest.Magic.Slots
import Sidequest.Migrations.Survives
import Sidequest.Mutation.Use
import Sidequest.Projection.Denotes
import Sidequest.Projection.Redaction
import Sidequest.Projection.Refill
import Sidequest.Protocol.Sanitized
import Sidequest.Resource.Pool
import Sidequest.Room.Barrier
import Sidequest.Room.Dispatch
import Sidequest.Room.Ledger
import Sidequest.Room.Presence
import Sidequest.Seed.Engine
import Sidequest.Table.Atomic
import Sidequest.Table.Showdown
import Sidequest.Table.Wreck
import Sidequest.Tactical.Movement
import Sidequest.Tactical.Sight
import Sidequest.Tactical.Zones
import Sidequest.Trope.Bounds
import Sidequest.Trope.Days
import Sidequest.World.ClueIntake
import Sidequest.World.Discovered
import Sidequest.World.Trail
import Sidequest.World.PartyQuests
import Sidequest.World.SharedDelta
import Sidequest.World.SiteThemes
import Sidequest.World.WayHome
import Sidequest.Agents.Politics
import Sidequest.World.StateDelta
import Sidequest.Dungeon.Handshake
