import MaxScaleSystemTest.Lib.InputLoop
import MaxScaleSystemTest.Lib.Delimited
import MaxScaleSystemTest.Lib.Buffer
import MaxScaleSystemTest.Lib.SystemCalls
import MaxScaleSystemTest.Verdict
import MaxScaleSystemTest.Sql.Query
import MaxScaleSystemTest.Nodes.SyncSlaves
import MaxScaleSystemTest.Nodes.FixReplication
import MaxScaleSystemTest.Cdc.Connection
import MaxScaleSystemTest.Cdc.Handshake
import MaxScaleSystemTest.Cdc.Rows
import MaxScaleSystemTest.Cdc.Requests
import MaxScaleSystemTest.Cdc.Lifetime
import MaxScaleSystemTest.Cdc.Descriptors
import MaxScaleSystemTest.Maxadmin.SendCommand
import MaxScaleSystemTest.Maxadmin.Replies
import MaxScaleSystemTest.Lib.Scan
import MaxScaleSystemTest.Lib.Sole
import MaxScaleSystemTest.Maxadmin.Param
import MaxScaleSystemTest.Maxadmin.ParamBounds
import MaxScaleSystemTest.Maxadmin.FindMaster
import MaxScaleSystemTest.Maxadmin.Tcp
import MaxScaleSystemTest.Maxinfo.Auth
import MaxScaleSystemTest.Sql.FindField
import MaxScaleSystemTest.Nodes.FindMaster
import MaxScaleSystemTest.Sql.ConnNum
import MaxScaleSystemTest.Nodes.ConnectedSlave
import MaxScaleSystemTest.Nodes.SlaveFailover
import MaxScaleSystemTest.Lib.StringStream
import MaxScaleSystemTest.Nodes.Versions
import MaxScaleSystemTest.Nodes.LowestVersion
import MaxScaleSystemTest.Sql.CountRows
import MaxScaleSystemTest.Lib.Decimal
import MaxScaleSystemTest.Lib.While
import MaxScaleSystemTest.Nodes.Iptables
import MaxScaleSystemTest.Sql.InsertText
import MaxScaleSystemTest.Sql.InsertCache
import MaxScaleSystemTest.Sql.SelectCheck
import MaxScaleSystemTest.Sql.SelectVerdict
import MaxScaleSystemTest.Sql.T1
import MaxScaleSystemTest.CdcClient.Mailbox
import MaxScaleSystemTest.CdcClient.Records
import MaxScaleSystemTest.Config.Mirror
import MaxScaleSystemTest.Lib.Estate
import MaxScaleSystemTest.Rds.CreateDb
import MaxScaleSystemTest.Rds.Rollback
import MaxScaleSystemTest.Nodes.FixBudget
import MaxScaleSystemTest.Nodes.CheckNodes
import MaxScaleSystemTest.Nodes.SyncTarget
import MaxScaleSystemTest.Sql.T1Table
import MaxScaleSystemTest.Lib.RefCount
import MaxScaleSystemTest.Maxinfo.AuthBlocks
import MaxScaleSystemTest.Maxinfo.Jansson
import MaxScaleSystemTest.Maxinfo.JsonRecord
import MaxScaleSystemTest.Lib.Settled
import MaxScaleSystemTest.Sql.FieldPrint
import MaxScaleSystemTest.Nodes.CheckReplication
import MaxScaleSystemTest.Nodes.ReplicationVerdict
import MaxScaleSystemTest.Lib.Fgets
import MaxScaleSystemTest.Lib.Printf
import MaxScaleSystemTest.Lib.Blocks
import MaxScaleSystemTest.Nodes.IptablesFrame
import MaxScaleSystemTest.Firewall.QueryFiles
import MaxScaleSystemTest.Sql.Verbatim
import MaxScaleSystemTest.Sql.QueryFromFile
import MaxScaleSystemTest.Nodes.ReadEnv
import MaxScaleSystemTest.Nodes.GaleraPriority
import MaxScaleSystemTest.Rds.CompareMasters
import MaxScaleSystemTest.CdcClient.Verdict
import MaxScaleSystemTest.Cdc.Datatypes
import MaxScaleSystemTest.Avro.Checker
import MaxScaleSystemTest.Lib.Json
import MaxScaleSystemTest.Rds.GetWriter
import MaxScaleSystemTest.Rds.WaitForNodes
import MaxScaleSystemTest.Rds.Subnets
import MaxScaleSystemTest.Lib.Traces
import MaxScaleSystemTest.Rds.DeleteCluster
import MaxScaleSystemTest.Lib.Words
import MaxScaleSystemTest.Sql.LongBlob
import MaxScaleSystemTest.Lib.Substitute
import MaxScaleSystemTest.Config.Template
import MaxScaleSystemTest.Binlog.ChangeMaster
import MaxScaleSystemTest.Nodes.RwSelectInsert
import MaxScaleSystemTest.Lib.Growing
import MaxScaleSystemTest.Output.Accumulate
import MaxScaleSystemTest.Lib.Countdown
import MaxScaleSystemTest.Timeouts.Watchdog
import MaxScaleSystemTest.Lib.Handles
import MaxScaleSystemTest.Load.ShortSessions
import MaxScaleSystemTest.Load.BigLoad
import MaxScaleSystemTest.Nodes.Connections
import MaxScaleSystemTest.Maxscale.Connections
import MaxScaleSystemTest.Maxscale.CreateConnections
import MaxScaleSystemTest.Lib.Shell
import MaxScaleSystemTest.Nodes.SshCommand
import MaxScaleSystemTest.Output.CheckLog
import MaxScaleSystemTest.Sql.CheckOne
import MaxScaleSystemTest.Load.BigDump
import MaxScaleSystemTest.Sql.EventSize
import MaxScaleSystemTest.Load.ReadonlyStress
import MaxScaleSystemTest.Timeouts.LogCopy
import MaxScaleSystemTest.Nodes.CheckGalera
import MaxScaleSystemTest.Binlog.FailoverVerdict
