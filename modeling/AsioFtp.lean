import AsioFtp.Lib.Runs
import AsioFtp.Bytes
import AsioFtp.Helpers
import AsioFtp.BaseSession
import AsioFtp.Calls
import AsioFtp.ControlChannel
import AsioFtp.DataChannel
import AsioFtp.Framing
import AsioFtp.Isolation
import AsioFtp.Login
import AsioFtp.Namespace
import AsioFtp.Tree
import AsioFtp.Uploads
import AsioFtp.Frames
import AsioFtp.Gate
import AsioFtp.Links
import AsioFtp.Replies
import AsioFtp.Startup
import AsioFtp.Connections
import AsioFtp.Blobs
import AsioFtp.Arguments
import AsioFtp.Addresses
import AsioFtp.Downloads
import AsioFtp.Objects
import AsioFtp.Lib.Walk
import AsioFtp.Walks
import AsioFtp.Disconnects
import AsioFtp.Refusals
import AsioFtp.SendLoop
import AsioFtp.Leftovers
import AsioFtp.Completions
import AsioFtp.Cleanup
import AsioFtp.Lib.Members
import AsioFtp.Lib.Cuts
import AsioFtp.Strings
import AsioFtp.Answers
import AsioFtp.Lookups
import AsioFtp.Queries
import AsioFtp.Decoding
import AsioFtp.Config
import AsioFtp.Main
import AsioFtp.Lib.FileTrees
import AsioFtp.FileSystem
import AsioFtp.Shells
import AsioFtp.Lifetimes
import AsioFtp.Schema
import AsioFtp.Checks
import AsioFtp.Accounts
import AsioFtp.Lib.Readers
import AsioFtp.Vocabulary
import AsioFtp.Wire
import AsioFtp.Promises
import AsioFtp.Lib.Layouts
import AsioFtp.ConfigText
import AsioFtp.Tunnels
import AsioFtp.Lib.Sharing
import AsioFtp.Contents
