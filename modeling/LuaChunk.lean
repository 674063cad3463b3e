import LuaChunk.Main
import LuaChunk.Proofs.CommandLine.Run
import LuaChunk.Proofs.Continuation
import LuaChunk.Proofs.Cost
import LuaChunk.Proofs.Decimal.Agreement
import LuaChunk.Proofs.Descent
import LuaChunk.Proofs.Diagnosis
import LuaChunk.Proofs.Halting
import LuaChunk.Proofs.Image
import LuaChunk.Proofs.Limits
import LuaChunk.Proofs.Machine.Session
import LuaChunk.Proofs.Noninterference
import LuaChunk.Proofs.RoundTrip
import LuaChunk.Proofs.Session
import LuaChunk.Proofs.Spans
import LuaChunk.Proofs.Listing.Blocks
import LuaChunk.Proofs.Listing.Constants
import LuaChunk.Proofs.Listing.ShownForm
import LuaChunk.Proofs.Text.Damage
import LuaChunk.Proofs.TreeView
import LuaChunk.Proofs.Log
import LuaChunk.Proofs.Truncation
import LuaChunk.Proofs.Reader.Words
import LuaChunk.Wire.Session
