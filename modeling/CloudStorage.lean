import CloudStorage.Wire.Socket
import CloudStorage.Messages.Portability
import CloudStorage.Storage.Names
import CloudStorage.Storage.Prompt
import CloudStorage.Authentication.Mutual
import CloudStorage.Server.Replay
import CloudStorage.Server.Custody
import CloudStorage.Server.Takeover
import CloudStorage.Server.Concurrency
import CloudStorage.Session.Chunks
import CloudStorage.Session.Listing
import CloudStorage.Session.Refinement
import CloudStorage.Session.Decoding
import CloudStorage.Session.Leftovers
import CloudStorage.Session.Receives
import CloudStorage.Session.Reported
import CloudStorage.Dialogue.Outcomes
